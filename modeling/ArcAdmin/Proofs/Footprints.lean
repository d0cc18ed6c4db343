import ArcAdmin.Services.Users
import ArcAdmin.Services.Roles
import ArcAdmin.ReadCommitted.Footprint

/-!
# Which tables the repository functions write

One lemma for each repository or service function that is beside the point of some property: it
changes only the tables named, so that it stays within every condition `φ` on changes that leaves
these tables free. Functions that only read stay within any condition.
-/

namespace ArcAdmin

open ReadCommitted
open Prog.All

variable {φ : Change Table}

/-! ## Statements

The statements whose footprint is their table.
-/

section Statements

variable {t : Table} {ε : Type}

theorem query_within : (query : Prog Table ε Snap).All (Act.Within φ) :=
  all_perform trivial

theorem poolQuery_within : (poolQuery : Prog Table ε Snap).All (Act.Within φ) :=
  all_perform trivial

theorem utcNow_within : (utcNow : Prog Table ε Nat).All (Act.Within φ) := all_perform trivial

theorem fresh_within : (fresh : Prog Table ε Nat).All (Act.Within φ) := all_perform trivial

theorem update_within (u : Update Table t) (h : Free φ t) :
    (u.exec : Prog Table ε _).All (Act.Within φ) :=
  Prog.All.update (fun _ _ _ _ => h _ _ _ _) trivial

theorem alter_within (u : Update Table t) (h : Alters φ t) :
    (u.exec : Prog Table ε _).All (Act.Within φ) :=
  Prog.All.update (fun _ _ _ _ => h _ _ _ _) trivial

/-- An `UPDATE` that leaves no events. -/
theorem edit_within (u : Update Table t) (hevs : ∀ s r, u.evs s r = []) (h : Edits φ t) :
    (u.exec : Prog Table ε _).All (Act.Within φ) :=
  Prog.All.update (fun s _ r _ => by rw [hevs s r]; exact h _ _ _) trivial

theorem delete_within (d : Delete Table t) (h : Edits φ t) :
    (d.exec : Prog Table ε _).All (Act.Within φ) :=
  Prog.All.delete (fun _ _ _ _ => h _ _ _) trivial

theorem insert_within (i : Insert Table t) (dup : ε) (h : Free φ t) :
    (i.exec dup).All (Act.Within φ) := Prog.All.insert fun _ => h _ _ _ _

theorem upsert_within (u : Upsert Table t) (e : ε) (h : Free φ t) :
    (u.exec e).All (Act.Within φ) :=
  .bind (all_perform ⟨h _ _ _ _, fun _ _ _ => h _ _ _ _⟩) fun _ => all_okOr _ _

theorem references_within (id : t.Id) (cond : t.Row → Bool) (missing : ε) :
    (references t id cond missing).All (Act.Within φ) := Prog.All.references trivial

theorem selectForUpdate_within (cond : Snap → t.Id → t.Row → Bool) :
    (selectForUpdate t cond : Prog Table ε _).All (Act.Within φ) :=
  Prog.All.selectForUpdate (fun _ _ => trivial) trivial

end Statements

/-! ## Audit records

Nearly every request writes them, and no property but those of the audit log looks at them.
-/

namespace Repositories.AuditLogs

theorem referencesOption_within (t : Table) (id : Option t.Id) (cond : t.Row → Bool) :
    (referencesOption t id cond).All (Act.Within φ) := by
  cases id with
  | none => exact .ret
  | some id => exact references_within id cond _

theorem record_within (h : Free φ .auditLogs) (actorUserId : Option Nat) (action targetType : String)
    (targetId : Option Nat) (details : List (String × Detail)) :
    (record actorUserId action targetType targetId details).All (Act.Within φ) :=
  .bind query_within fun _ => .bind (insert_within _ _ h) fun _ =>
    .bind (referencesOption_within _ _ _) fun _ => .bind (referencesOption_within _ _ _) fun _ =>
      referencesOption_within _ _ _

end Repositories.AuditLogs

open Repositories

/-! ## Departments, users and roles

Finer footprints where a property tells the rows of a table apart.
-/

namespace Repositories

namespace Departments

theorem findById_within (actor : ActorContext) (id : Nat) :
    (findById actor id).All (Act.Within φ) :=
  .bind poolQuery_within fun _ => .bind (all_okOr _ _) fun _ => .ret

theorem codeExists_within (organizationId : Nat) (code : String) (excludeId : Option Nat) :
    (codeExists organizationId code excludeId).All (Act.Within φ) :=
  .bind poolQuery_within fun _ => .ret

theorem parentWouldCreateCycle_within (organizationId departmentId parentId : Nat) :
    (parentWouldCreateCycle organizationId departmentId parentId).All (Act.Within φ) :=
  .bind poolQuery_within fun _ => .bind (all_okOr _ _) fun _ => .ret

theorem referencesParent_within (parentId organizationId : Nat) :
    (referencesParent parentId organizationId).All (Act.Within φ) :=
  references_within (t := .departments) parentId _ _

theorem create_within (h : Free φ .departments) (organizationId : Nat)
    (department : NewDepartment) : (create organizationId department).All (Act.Within φ) :=
  .bind query_within fun _ => .bind (insert_within _ _ h) fun _ =>
    .bind (references_within _ _ _) fun _ => .bind (referencesParent_within _ _) fun _ => .ret

theorem update_within (h : Free φ .departments) (organizationId id : Nat)
    (department : DepartmentUpdate) : (update organizationId id department).All (Act.Within φ) :=
  .bind (ArcAdmin.update_within _ h) fun _ => .bind
    (whenever (.bind (ifSome fun _ => .bind query_within fun _ => all_reject _ _) fun _ =>
      ifSome fun _ => referencesParent_within _ _)) fun _ => .ret

theorem restrict_within (deleted : List Nat) : (restrict deleted).All (Act.Within φ) :=
  forEach fun _ => .bind query_within fun _ => all_reject _ _

theorem deleteIfEmpty_within (hdept : Free φ .departments)
    (husers : ∀ id old new, φ .users id old new []) (organizationId id : Nat) :
    (deleteIfEmpty organizationId id).All (Act.Within φ) :=
  .bind (Prog.All.update (fun _ _ _ _ => husers _ _ _) trivial) fun _ =>
    .bind (delete_within _ hdept.edits) fun _ => .bind (restrict_within _) fun _ => .ret

end Departments

namespace Users

theorem findById_within (id : Nat) : (findById id).All (Act.Within φ) :=
  .bind poolQuery_within fun _ => .ret

theorem findByUsername_within (username : String) :
    (findByUsername username).All (Act.Within φ) :=
  .bind poolQuery_within fun _ => .ret

theorem findByIdForActor_within (actor : ActorContext) (id : Nat) :
    (findByIdForActor actor id).All (Act.Within φ) :=
  .bind poolQuery_within fun _ => .ret

theorem referencesDepartment_within (departmentId : Option Nat) (organizationId : Nat) :
    (referencesDepartment departmentId organizationId).All (Act.Within φ) := by
  cases departmentId with
  | none => exact .ret
  | some id => exact references_within (t := .departments) id _ _

theorem create_within (h : Free φ .users) (user : NewUser) : (create user).All (Act.Within φ) :=
  .bind query_within fun _ => .bind (insert_within _ _ h) fun _ =>
    .bind (references_within _ _ _) fun _ => .bind (referencesDepartment_within _ _) fun _ => .ret

theorem roleNamesByUser_within (userId : Nat) : (roleNamesByUser userId).All (Act.Within φ) :=
  .bind poolQuery_within fun _ => .ret

theorem roleIdsByUser_within (userId : Nat) : (roleIdsByUser userId).All (Act.Within φ) :=
  .bind poolQuery_within fun _ => .ret

theorem assignRole_within (h : Free φ .userRoles) (userId roleId : Nat) :
    (assignRole userId roleId).All (Act.Within φ) :=
  .bind (insert_within _ _ h) fun _ => .bind (references_within _ _ _) fun _ =>
    references_within _ _ _

/-- **Replacing the roles of an account** touches the roles of nobody else. -/
theorem assignRoles_within_user {userId : Nat}
    (h : ∀ (id : Nat × Nat) old new evs, id.1 = userId → φ .userRoles id old new evs)
    (roleIds : List Nat) : (assignRoles userId roleIds).All (Act.Within φ) := by
  refine .bind query_within fun _ => .bind (Prog.All.deleteOn fun id _ hr => ?_) fun _ =>
    .bind (forEach fun roleId => ?_) fun _ => .ret
  · exact h id _ _ _ (eq_of_beq hr)
  · exact .bind (Prog.All.insert fun _ => h (userId, roleId) _ _ _ rfl) fun _ =>
      .bind (references_within _ _ _) fun _ => references_within _ _ _

theorem assignRoles_within (h : Free φ .userRoles) (userId : Nat) (roleIds : List Nat) :
    (assignRoles userId roleIds).All (Act.Within φ) :=
  assignRoles_within_user (fun _ _ _ _ _ => h _ _ _ _) _

theorem superAdminGuardState_within (userId : Nat) :
    (superAdminGuardState userId).All (Act.Within φ) := by
  refine .bind (selectForUpdate_within _) fun locked => ?_
  cases locked.head? with
  | none => exact .ret
  | some e => exact .bind query_within fun _ => .ret

end Users

namespace Roles

theorem findById_within (id : Nat) : (findById id).All (Act.Within φ) :=
  .bind poolQuery_within fun _ => .ret

theorem idByCode_within (code : String) : (idByCode code).All (Act.Within φ) :=
  .bind poolQuery_within fun _ => .ret

theorem activeIdsByIds_within (roleIds : List Nat) : (activeIdsByIds roleIds).All (Act.Within φ) :=
  .bind poolQuery_within fun _ => .ret

theorem permissionIdsByRole_within (roleId : Nat) :
    (permissionIdsByRole roleId).All (Act.Within φ) :=
  .bind poolQuery_within fun _ => .ret

theorem permissionGroupIdsByRole_within (roleId : Nat) :
    (permissionGroupIdsByRole roleId).All (Act.Within φ) :=
  .bind poolQuery_within fun _ => .ret

theorem create_within (h : Free φ .roles) (role : NewRole) : (create role).All (Act.Within φ) :=
  .bind query_within fun _ => insert_within _ _ h

/-- **Replacing the permissions of a role** touches the permissions of no other role. -/
theorem assignPermissions_within_role {roleId : Nat}
    (h : ∀ (id : Nat × Nat) old new evs, id.1 = roleId → φ .rolePermissions id old new evs)
    (permissionIds : List Nat) : (assignPermissions roleId permissionIds).All (Act.Within φ) := by
  refine .bind query_within fun _ => .bind (Prog.All.deleteOn fun id _ hr => ?_) fun _ =>
    .bind (forEach fun permissionId => ?_) fun _ => .ret
  · exact h id _ _ _ (eq_of_beq hr)
  · exact .bind (Prog.All.insert fun _ => h (roleId, permissionId) _ _ _ rfl) fun _ =>
      .bind (references_within _ _ _) fun _ => references_within _ _ _

theorem assignPermissions_within (h : Free φ .rolePermissions) (roleId : Nat)
    (permissionIds : List Nat) : (assignPermissions roleId permissionIds).All (Act.Within φ) :=
  assignPermissions_within_role (fun _ _ _ _ _ => h _ _ _ _) _

end Roles

namespace Permissions

theorem codesByIds_within (permissionIds : List Nat) :
    (codesByIds permissionIds).All (Act.Within φ) :=
  .bind query_within fun _ => .ret

theorem codesByRoleIds_within (roleIds : List Nat) :
    (codesByRoleIds roleIds).All (Act.Within φ) :=
  .bind poolQuery_within fun _ => .ret

theorem permissionCodesByUser_within (userId : Nat) :
    (permissionCodesByUser userId).All (Act.Within φ) :=
  .bind poolQuery_within fun _ => .ret

end Permissions

/-! ## Sessions

Revoking sessions, and pruning those that are long gone.
-/

namespace AuthSessions

theorem revokeAllForUser_within (h : Edits φ .authSessions) (userId : Nat) :
    (revokeAllForUser userId).All (Act.Within φ) :=
  .bind query_within fun _ => .bind (Prog.All.updateOn fun _ _ _ => h _ _ _) fun _ => .ret

end AuthSessions

end Repositories

/-! ## Checks of the services

Checks that read, and write nothing at all.
-/

namespace Services

theorem Departments.validateAssignment_within (actor : ActorContext) (departmentId : Nat) :
    (Departments.validateAssignment actor departmentId).All (Act.Within φ) :=
  .bind (Repositories.Departments.findById_within _ _) fun _ => .bind (all_okOr _ _) fun _ =>
    all_reject _ _

namespace Departments

theorem get_within (actor : ActorContext) (id : Nat) : (get actor id).All (Act.Within φ) :=
  .bind (Repositories.Departments.findById_within _ _) fun _ => all_okOr _ _

theorem validateParent_within (actor : ActorContext) (parentId : Nat) (targetId : Option Nat) :
    (validateParent actor parentId targetId).All (Act.Within φ) :=
  .bind (all_reject _ _) fun _ => .bind (Repositories.Departments.findById_within _ _) fun _ =>
    .bind (all_okOr _ _) fun _ => all_reject _ _

theorem ensureCodeAvailable_within (organizationId : Nat) (code : String)
    (excludeId : Option Nat) :
    (ensureCodeAvailable organizationId code excludeId).All (Act.Within φ) :=
  .bind (Repositories.Departments.codeExists_within _ _ _) fun _ => all_reject _ _

theorem validateMove_within (actor : ActorContext) (id : Nat) (current : DepartmentRow)
    (parentId : Nat) : (validateMove actor id current parentId).All (Act.Within φ) :=
  whenever <| .bind (validateParent_within _ _ _) fun _ =>
    .bind (Repositories.Departments.parentWouldCreateCycle_within _ _ _) fun _ => all_reject _ _

end Departments

namespace Auth

theorem hashPassword_within (env : External) (password : String) :
    (hashPassword env password).All (Act.Within φ) :=
  .bind fresh_within fun _ => all_okOrThrow _

theorem recordSessionRevocation_within (h : Free φ .auditLogs) (actorUserId : Option Nat)
    (targetUserId : Nat) (reason : String) (count : Nat) :
    (recordSessionRevocation actorUserId targetUserId reason count).All (Act.Within φ) :=
  whenever (AuditLogs.record_within h _ _ _ _ _)

end Auth

namespace Users

theorem ensureActorCanAccess_within (actor : Option ActorContext) (userId : Nat) :
    (ensureActorCanAccess actor userId).All (Act.Within φ) := by
  refine bind ?_ fun _ => all_reject _ _
  cases actor with
  | none => exact Repositories.Users.findById_within _
  | some actor => exact Repositories.Users.findByIdForActor_within _ _

theorem validateBatchUserIds_within (userIds : List Nat) (actorUserId : Nat) :
    (validateBatchUserIds userIds actorUserId).All (Act.Within φ) :=
  .bind (all_reject _ _) fun _ => .bind (all_reject _ _) fun _ => all_reject _ _

theorem validateRoleGrantScope_within (actorUserId : Option Nat) (roleIds : List Nat)
    (canGrantSuperAdmin : Bool) :
    (validateRoleGrantScope actorUserId roleIds canGrantSuperAdmin).All (Act.Within φ) :=
  .bind (all_reject _ _) fun _ => .bind (Roles.activeIdsByIds_within _) fun _ =>
    .bind (all_reject _ _) fun _ => .bind (Roles.idByCode_within _) fun _ =>
      .bind (all_reject _ _) fun _ => ifSome fun _ =>
        .bind (Permissions.permissionCodesByUser_within _) fun _ =>
          .bind (Permissions.codesByRoleIds_within _) fun _ => all_reject _ _

theorem validateDepartment_within (id : Nat) (actor : ActorContext) (departmentId : Nat)
    (canAssignDepartment : Bool) :
    (validateDepartment id actor departmentId canAssignDepartment).All (Act.Within φ) :=
  .bind (all_reject _ _) fun _ => .bind (all_reject _ _) fun _ =>
    Departments.validateAssignment_within _ _

theorem validateStatus_within (id : Nat) (actorUserId : Option Nat) (status : String)
    (canGrantSuperAdmin : Bool) :
    (validateStatus id actorUserId status canGrantSuperAdmin).All (Act.Within φ) :=
  .bind (all_reject _ _) fun _ => .bind (all_reject _ _) fun _ => whenever <|
    .bind (Repositories.Users.roleIdsByUser_within _) fun _ => validateRoleGrantScope_within _ _ _

theorem newPasswordHash_within (env : External) (password : Option String) :
    (newPasswordHash env password).All (Act.Within φ) := by
  cases password with
  | none => exact .ret
  | some password =>
    exact .bind (all_reject _ _) fun _ => .bind (Auth.hashPassword_within _ _) fun _ => .ret

theorem protectLastSuperAdmin_within (userId : Nat) :
    (protectLastSuperAdmin userId).All (Act.Within φ) :=
  .bind (Repositories.Users.superAdminGuardState_within _) fun _ => all_reject _ _

end Users

namespace Roles

theorem get_within (id : Nat) : (get id).All (Act.Within φ) :=
  .bind (Repositories.Roles.findById_within _) fun _ => .bind (all_okOr _ _) fun _ =>
    .bind (Repositories.Roles.permissionGroupIdsByRole_within _) fun _ => .ret

theorem validateDataScope_within (dataScope : String) :
    (validateDataScope dataScope).All (Act.Within φ) :=
  .bind (all_reject _ _) fun _ => all_okOr _ _

theorem validatePermissionDependencies_within (permissionIds : List Nat) :
    (validatePermissionDependencies permissionIds).All (Act.Within φ) :=
  .bind (all_reject _ _) fun _ => .bind (Permissions.codesByIds_within _) fun _ =>
    .bind (all_reject _ _) fun _ => .bind (all_reject _ _) fun _ => .bind (all_reject _ _) fun _ =>
      .ret

theorem validatePermissionGrantScope_within (actorUserId : Option Nat)
    (requestedPermissions : List String) :
    (validatePermissionGrantScope actorUserId requestedPermissions).All (Act.Within φ) :=
  ifSome fun _ => .bind (Permissions.permissionCodesByUser_within _) fun _ => all_reject _ _

theorem validateDeactivation_within (id : Nat) : (validateDeactivation id).All (Act.Within φ) :=
  .bind (Repositories.Roles.findById_within _) fun _ => .bind (all_okOr _ _) fun _ => all_reject _ _

theorem validateScopeUpdate_within (id : Nat) (actorDataScope : DataScope) (dataScope : String) :
    (validateScopeUpdate id actorDataScope dataScope).All (Act.Within φ) :=
  .bind (validateDataScope_within _) fun _ => .bind (all_reject _ _) fun _ =>
    .bind (Repositories.Roles.findById_within _) fun _ => .bind (all_okOr _ _) fun _ =>
      all_reject _ _

theorem validateActivation_within (id : Nat) (actorUserId : Option Nat) :
    (validateActivation id actorUserId).All (Act.Within φ) :=
  .bind (Permissions.codesByRoleIds_within _) fun _ => validatePermissionGrantScope_within _ _

end Roles

end Services

end ArcAdmin
