import ArcAdmin.ReadCommitted.Renewal
import ArcAdmin.ReadCommitted.Script
import ArcAdmin.Proofs.Outside
import ArcAdmin.Sample

/-!
# Permission dependencies

`validate_permission_dependencies` demands of a requested set of permissions that some codes come
with others. The set that is stored may be a mixture of several requests, but every mixture is a
union of whole requests, and the demand is one that unions keep.

* **`CodesClosed`** — the demand, of the codes that a set has;
* **`permissionRenewal`** — the stored permissions of roles, with that demand;
* **`permissionDependencies_closed`** — the permissions of every role satisfy it at every commit.
-/

namespace ArcAdmin

open ReadCommitted
open Prog.All

/-! ## The demand

The demand says that some codes come with others. If two sets meet it, their union does.
-/

/-- **What `validate_permission_dependencies` demands** of the codes of a set. -/
def CodesClosed (has : String → Prop) : Prop :=
  (has "role:permissions:write" → has "role:directory:read" ∧ has "permission:directory:read") ∧
    (has "organization:department:write" → has "organization:department:read")

/-- The permissions `ids` carry the code. -/
def CarryCode (s : Store Table) (ids : Nat → Prop) (code : String) : Prop :=
  ∃ id, ids id ∧ ∃ row : PermissionRow, s.get .permissions id = some row ∧ row.code = code

/-- The permissions that are stored for a role. -/
def StoredPermission (s : Store Table) (roleId permissionId : Nat) : Prop :=
  (s.get .rolePermissions (roleId, permissionId)).isSome

/-- **The permissions of the role satisfy the demand.** -/
def DependenciesClosed (s : Store Table) (roleId : Nat) : Prop :=
  CodesClosed (CarryCode s (StoredPermission s roleId))

/-- Two sets that satisfy the demand satisfy it together. -/
theorem CodesClosed.or {has has' : String → Prop} (h : CodesClosed has) (h' : CodesClosed has') :
    CodesClosed fun code => has code ∨ has' code := by
  constructor
  · rintro (hw | hw)
    · exact ⟨.inl (h.1 hw).1, .inl (h.1 hw).2⟩
    · exact ⟨.inr (h'.1 hw).1, .inr (h'.1 hw).2⟩
  · rintro (hw | hw)
    · exact .inl (h.2 hw)
    · exact .inr (h'.2 hw)

theorem CodesClosed.congr {has has' : String → Prop} (h : CodesClosed has)
    (heq : ∀ code, has code ↔ has' code) : CodesClosed has' := by
  have hfun : has = has' := funext fun code => propext (heq code)
  rw [← hfun]
  exact h

theorem CarryCode.or {s : Store Table} {ids ids' : Nat → Prop} (code : String) :
    CarryCode s ids code ∨ CarryCode s ids' code ↔
      CarryCode s (fun id => ids id ∨ ids' id) code := by
  constructor
  · rintro (⟨id, hid, hrow⟩ | ⟨id, hid, hrow⟩)
    · exact ⟨id, .inl hid, hrow⟩
    · exact ⟨id, .inr hid, hrow⟩
  · rintro ⟨id, hid | hid, hrow⟩
    · exact .inl ⟨id, hid, hrow⟩
    · exact .inr ⟨id, hid, hrow⟩

theorem CarryCode.congr {s s' : Store Table} {ids ids' : Nat → Prop} (hids : ∀ id, ids id ↔ ids' id)
    (hs : ∀ id, s.get .permissions id = s'.get .permissions id) (code : String) :
    CarryCode s ids code ↔ CarryCode s' ids' code := by
  refine exists_congr fun id => and_congr (hids id) ?_
  rw [hs id]

/-! ## Permissions as tuples

The stored permissions of a role as a renewal, in the sense of `ReadCommitted.Renewal`.
-/

/-- The links of a set, as permissions. -/
def linkedPermissions (links : Set (Nat × Nat)) (permissionId : Nat) : Prop :=
  ∃ e ∈ links, e.2 = permissionId

/-- **The permissions of roles, and the demand.** No request writes the table of permissions, so that
the codes are those of the start. -/
def permissionRenewal (s₀ : Server Table) : Renewal Table.rolePermissions Nat where
  part e := e.1
  num row := LinkRow.tuple row
  born row := .permissionAssigned (LinkRow.tuple row)
  num_born _ _ h := Event.permissionAssigned.inj h
  Good links := CodesClosed (CarryCode s₀.store (linkedPermissions links))
  empty := by
    constructor <;>
    · rintro ⟨id, ⟨e, he, _⟩, _⟩
      cases he
  union A B hA hB := by
    refine (hA.or hB).congr fun code => (CarryCode.or code).trans (CarryCode.congr (fun id => ?_)
      (fun _ => rfl) code)
    constructor
    · rintro (⟨e, he, hid⟩ | ⟨e, he, hid⟩)
      · exact ⟨e, .inl he, hid⟩
      · exact ⟨e, .inr he, hid⟩
    · rintro ⟨e, he | he, hid⟩
      · exact .inl ⟨e, he, hid⟩
      · exact .inr ⟨e, he, hid⟩

/-- What is known of every connection: the permissions are those of the start. -/
def SamePermissions (s₀ : Server Table) (c : Conn Table) : Prop :=
  ∀ id, c.view.get .permissions id = s₀.store.get .permissions id

/-- What every connection may rely on. -/
def permissionBase (s₀ : Server Table) (_ : Nat) (c : Conn Table) : Prop :=
  c.Wf ∧ SamePermissions s₀ c

theorem permissionBase_wf {s₀ : Server Table} : ∀ p c, permissionBase s₀ p c → c.Wf :=
  fun _ _ h => h.1

/-- The table of permissions is written by nobody. -/
theorem permissions_law (s₀ : Server Table) : RowLaw Table.permissions
    fun id (row : Option PermissionRow) _ => row = s₀.store.get .permissions id where
  step _ _ _ _ _ hok _ _ := by cases hok

theorem permissionBase_reachable {Req ρ : Type} {prog : Req → Db ρ} {s₀ : Server Table}
    (h₀ : s₀.Wf) {C : ReadCommitted.Config Table ApiError ρ Req} (h : Reachable prog s₀ C)
    (p : Nat) : permissionBase s₀ p (C.conn p) :=
  ⟨h.wf h₀ p, ((permissions_law s₀).reachable h₀ (fun _ => rfl) h p).2⟩

/-! ## Requests

Every request that writes permissions of roles has checked the set that it inserts, against codes
that nobody changes.
-/

/-- A request that creates a role, replaces its permissions or changes its other columns. -/
inductive RoleChange where
  | create (actorUserId : Option Nat) (actorDataScope : DataScope) (req : CreateRoleRequest)
      (canAssignPermissions : Bool)
  | assignPermissions (actorUserId : Option Nat) (id : Nat) (req : UpdateRolePermissionsRequest)
  | update (actorUserId : Option Nat) (actorDataScope : DataScope) (id : Nat)
      (req : UpdateRoleRequest)

/-- The program of such a request. -/
def changeRole : RoleChange → Db (Option RoleResponse)
  | .create actorUserId actorDataScope req canAssignPermissions => do
    let role ← Services.Roles.create actorUserId actorDataScope req canAssignPermissions
    return some role
  | .assignPermissions actorUserId id req => do
    Services.Roles.assignPermissions actorUserId id req
    return none
  | .update actorUserId actorDataScope id req => do
    let role ← Services.Roles.update actorUserId actorDataScope id req
    return some role

section Requests

variable {s₀ : Server Table} {p : Nat} {α : Type} {m : Db α} {P : Conn Table → Prop}

/-- The judge of a request. -/
abbrev permissionJudge (s₀ : Server Table) (p : Nat) : Judge Table :=
  ((permissionRenewal s₀).contract s₀ (permissionBase s₀)).judge p

/-- Nothing is claimed of what happens outside the transaction. -/
theorem roleChange_outside (hm : m.All (Act.Within (tables []))) :
    Triple (permissionJudge s₀ p) p (fun _ => True) m fun _ _ => True :=
  Triple.within (Judge.Stable.const _) (fun _ _ _ h => h) hm

/-- What the transaction knows of the permissions of roles, and does not lose. -/
structure Carry (s₀ : Server Table) (p : Nat) (P : Conn Table → Prop) : Prop where
  stable : (permissionJudge s₀ p).Stable P
  aside : ∀ c c', Aside .rolePermissions c c' → P c → P c'

theorem carry_unlocked : Carry s₀ p (Renewal.Unlocked .rolePermissions) where
  stable := Renewal.stable_unlocked
  aside _ _ hs h := h.aside hs

theorem carry_refilling (a roleId : Nat) (done : Set (Nat × Nat)) :
    Carry s₀ p ((permissionRenewal s₀).Refilling s₀ a roleId done) where
  stable := Renewal.stable_refilling (R := permissionRenewal s₀) permissionBase_wf a roleId done
  aside _ _ hs h := h.aside hs

theorem Carry.keep (h : Carry s₀ p P) (hm : m.All (Act.Outside .rolePermissions)) :
    Triple (permissionJudge s₀ p) p P m fun _ => P :=
  Triple.aside h.stable h.aside hm

theorem beginTx_unlocked :
    Triple (permissionJudge s₀ p) p (fun _ => True) (beginTx : Db Unit)
      fun _ => Renewal.Unlocked .rolePermissions :=
  (Triple.beginTx Contract.private_judge).post fun _ _ hc => Renewal.Unlocked.of_begun hc

/-- The codes that `codes_by_ids` finds are those of the permissions. -/
theorem codesByIds_carry (h : Carry s₀ p P) (permissionIds : List Nat) :
    Triple (permissionJudge s₀ p) p P (Repositories.Permissions.codesByIds permissionIds)
      fun codes c => (∀ code, code ∈ codes ↔ CarryCode s₀.store (· ∈ permissionIds) code) ∧ P c := by
  refine Triple.bind (R := fun (s : Snap) c =>
    (∀ id, s.store.get .permissions id = s₀.store.get .permissions id) ∧ P c) ?_ fun s => ?_
  · exact Triple.query h.stable (fun s => (Judge.Stable.const _).and h.stable)
      fun c hb hc => ⟨hb.1.2, hc⟩
  · refine Triple.assuming fun hs => Triple.ret h.stable fun c _ hc => ⟨fun code => ?_, hc⟩
    constructor
    · intro hmem
      obtain ⟨e, he, hcode⟩ := List.mem_map.1 hmem
      obtain ⟨hrow, hid⟩ := List.mem_filter.1 he
      refine ⟨e.1, by simpa using hid, e.2, ?_, hcode⟩
      rw [← hs e.1]
      exact Store.mem_rows.1 hrow
    · rintro ⟨id, hid, row, hrow, hcode⟩
      rw [← hs id] at hrow
      refine List.mem_map.2 ⟨(id, row), List.mem_filter.2 ⟨Store.mem_rows.2 hrow, ?_⟩, hcode⟩
      simpa using hid

/-- **Permissions that pass the check satisfy the demand.** -/
theorem validatePermissionDependencies_closed (h : Carry s₀ p P) (permissionIds : List Nat) :
    Triple (permissionJudge s₀ p) p P
      (Services.Roles.validatePermissionDependencies permissionIds)
      fun _ c => CodesClosed (CarryCode s₀.store (· ∈ permissionIds)) ∧ P c := by
  refine (Triple.reject h.stable).bind fun _ => Triple.assuming fun _ => ?_
  refine (codesByIds_carry h permissionIds).bind fun codes => Triple.assuming fun hcodes => ?_
  refine (Triple.reject h.stable).bind fun _ => Triple.assuming fun _ => ?_
  refine (Triple.reject h.stable).bind fun _ => Triple.assuming fun hwrite => ?_
  refine (Triple.reject h.stable).bind fun _ => Triple.assuming fun hdepartment => ?_
  refine Triple.ret h.stable fun c _ hc => ⟨?_, hc⟩
  have hclosed : CodesClosed fun code => code ∈ codes := by
    have hmem : ∀ code, codes.dedup.contains code = true ↔ code ∈ codes := fun code => by
      rw [List.contains_iff_mem, List.mem_dedup]
    constructor
    · intro hw
      simp only [(hmem _).2 hw, Bool.true_and, Bool.or_eq_false_iff, Bool.not_eq_false'] at hwrite
      exact ⟨(hmem _).1 hwrite.1, (hmem _).1 hwrite.2⟩
    · intro hw
      simp only [(hmem _).2 hw, Bool.true_and, Bool.not_eq_false'] at hdepartment
      exact (hmem _).1 hdepartment
  exact hclosed.congr hcodes

/-- **The permissions of a role are replaced** by a set that satisfies the demand. -/
theorem assignClosure_owes (roleId : Nat) (permissionIds : List Nat)
    (hclosed : CodesClosed (CarryCode s₀.store (· ∈ permissionIds))) :
    Triple (permissionJudge s₀ p) p (Renewal.Unlocked .rolePermissions)
      (Repositories.Roles.assignPermissions roleId permissionIds)
      fun _ c => ∃ (a : Nat) (done : Set (Nat × Nat)), (permissionRenewal s₀).Good done ∧
        (permissionRenewal s₀).Refilling s₀ a roleId done c := by
  let links (ids : List Nat) : Set (Nat × Nat) := {e | e.1 = roleId ∧ e.2 ∈ ids}
  -- the DELETE empties the role, from the instant of its snapshot on
  have hsweep : Triple (permissionJudge s₀ p) p (Renewal.Unlocked .rolePermissions)
      ((Repositories.Roles.clearPermissionsStmt roleId).exec : Db _) fun _ c =>
        ∃ a, (permissionRenewal s₀).Refilling s₀ a roleId (∅ : Set (Nat × Nat)) c :=
    Renewal.sweep (R := permissionRenewal s₀) permissionBase_wf roleId
      (fun _ _ _ => beq_iff_eq) fun _ _ _ => beq_iff_eq
  -- each INSERT adds one link; the foreign keys it reads change nothing
  have hadd : ∀ a (done : Set (Nat × Nat)) id, Triple (permissionJudge s₀ p) p
      ((permissionRenewal s₀).Refilling s₀ a roleId done)
      (Repositories.Roles.assignPermission roleId id)
      fun _ => (permissionRenewal s₀).Refilling s₀ a roleId (insert (roleId, id) done) := by
    intro a done id
    refine (Renewal.refill (R := permissionRenewal s₀) permissionBase_wf
      (i := Repositories.Roles.assignPermissionStmt roleId id) (fun _ => rfl) rfl (fun _ => rfl)
      fun _ => rfl).bind fun _ => (carry_refilling a roleId _).keep ?_
    exact .bind (references_outside (by decide) _ _ _) fun _ =>
      references_outside (by decide) _ _ _
  have hst : (permissionJudge s₀ p).Stable fun c => ∃ (a : Nat) (done : Set (Nat × Nat)),
      (permissionRenewal s₀).Good done ∧ (permissionRenewal s₀).Refilling s₀ a roleId done c :=
    Judge.Stable.exists fun a => Judge.Stable.exists fun done =>
      (Judge.Stable.const _).and (carry_refilling a roleId done).stable
  -- the loop carries the links inserted so far
  refine Triple.queryThen hsweep fun s => Triple.ofExists fun a => ?_
  refine Triple.bind (R := fun _ c => ∃ (a : Nat) (done : Set (Nat × Nat)),
    (permissionRenewal s₀).Good done ∧ (permissionRenewal s₀).Refilling s₀ a roleId done c) ?_
    fun _ => Triple.ret hst fun _ _ hc => hc
  refine (Triple.forEachDone (I := fun ids c =>
    (permissionRenewal s₀).Refilling s₀ a roleId (links ids) c)
    (fun ids => (carry_refilling a roleId (links ids)).stable) (fun ids id _ => ?_) []).conseq
    (fun c hc => ?_) fun _ c hc => ⟨a, links permissionIds, ?_, hc⟩
  · have hlinks : links (ids ++ [id]) = insert (roleId, id) (links ids) := by
      ext ⟨role, permission⟩
      simp [links]
      grind
    rw [hlinks]
    exact hadd a (links ids) id
  · have hnone : links [] = ∅ := by
      ext e
      simp [links]
    rw [hnone]
    exact hc
  · -- the links of the whole list are the closed set that was checked
    refine hclosed.congr fun code => CarryCode.congr (fun id => ?_) (fun _ => rfl) code
    constructor
    · exact fun hid => ⟨(roleId, id), ⟨rfl, hid⟩, rfl⟩
    · rintro ⟨e, ⟨_, hid⟩, rfl⟩
      exact hid

/-- **The transaction may commit**: it has not touched the permissions of roles, or it has replaced
those of one role by a set that satisfies the demand. -/
def PermissionsSettled (s₀ : Server Table) (c : Conn Table) : Prop :=
  Renewal.Unlocked .rolePermissions c ∨ ∃ (roleId a : Nat) (done : Set (Nat × Nat)),
    (permissionRenewal s₀).Good done ∧ (permissionRenewal s₀).Refilling s₀ a roleId done c

theorem carry_settled : Carry s₀ p (PermissionsSettled s₀) where
  stable := carry_unlocked.stable.or (Judge.Stable.exists fun roleId => Judge.Stable.exists fun a =>
    Judge.Stable.exists fun done =>
      (Judge.Stable.const _).and (carry_refilling a roleId done).stable)
  aside c c' hs h := by
    rcases h with h | ⟨roleId, a, done, hgood, h⟩
    · exact .inl (h.aside hs)
    · exact .inr ⟨roleId, a, done, hgood, h.aside hs⟩

/-- The audit record is written to another table. -/
theorem record_settled (actorUserId : Option Nat) (action targetType : String)
    (targetId : Option Nat) (details : List (String × Detail)) :
    Triple (permissionJudge s₀ p) p (PermissionsSettled s₀)
      (Repositories.AuditLogs.record actorUserId action targetType targetId details)
      fun _ => PermissionsSettled s₀ :=
  carry_settled.keep (Repositories.AuditLogs.record_outside (by decide) _ _ _ _ _)

theorem commit_settled :
    Triple (permissionJudge s₀ p) p (PermissionsSettled s₀) (commitTx : Db Unit)
      fun _ _ => True := by
  refine (Renewal.commitTx (R := permissionRenewal s₀) carry_settled.stable
    fun c hb hc => ?_).post fun _ _ _ => trivial
  rcases hc with hc | ⟨roleId, a, done, hgood, hc⟩
  · exact hc.owes hb.1
  · exact hc.owes hb.1 hgood

/-- **`roles::assign_permissions`.** -/
theorem Services.Roles.assignPermissions_owes (actorUserId : Option Nat) (id : Nat)
    (req : UpdateRolePermissionsRequest) :
    Triple (permissionJudge s₀ p) p (fun _ => True)
      (Services.Roles.assignPermissions actorUserId id req) fun _ _ => True := by
  refine (roleChange_outside (Repositories.Roles.findById_within id)).bind fun role => ?_
  refine (roleChange_outside (all_okOr _ _)).bind fun role => ?_
  refine (roleChange_outside (all_reject _ _)).bind fun _ => ?_
  refine beginTx_unlocked.bind fun _ => ?_
  refine (validatePermissionDependencies_closed carry_unlocked req.permissionIds).bind
    fun codes => Triple.assuming fun hclosed => ?_
  refine (carry_unlocked.keep (Services.Roles.validatePermissionGrantScope_outside _ _)).bind
    fun _ => ?_
  refine (carry_unlocked.keep (Repositories.Roles.permissionIdsByRole_outside id)).bind
    fun previous => ?_
  refine (assignClosure_owes id req.permissionIds hclosed).bind fun _ => ?_
  refine Triple.bind ((carry_settled.keep note_outside).pre fun c hc => ?_) fun _ =>
    (record_settled _ _ _ _ _).bind fun _ => commit_settled
  obtain ⟨a, done, hgood, hc⟩ := hc
  exact .inr ⟨id, a, done, hgood, hc⟩

/-- **`roles::create`.** -/
theorem Services.Roles.create_owes (actorUserId : Option Nat) (actorDataScope : DataScope)
    (req : CreateRoleRequest) (canAssignPermissions : Bool) :
    Triple (permissionJudge s₀ p) p (fun _ => True)
      (Services.Roles.create actorUserId actorDataScope req canAssignPermissions)
      fun _ _ => True := by
  refine (roleChange_outside (all_reject _ _)).bind fun _ => ?_
  refine (roleChange_outside (all_reject _ _)).bind fun _ => ?_
  refine (roleChange_outside (all_reject _ _)).bind fun _ => ?_
  refine (roleChange_outside (Services.Roles.validateDataScope_within _)).bind fun scope => ?_
  refine (roleChange_outside (all_reject _ _)).bind fun _ => ?_
  refine beginTx_unlocked.bind fun _ => ?_
  refine (carry_unlocked.keep (.bind query_outside fun s =>
    Prog.All.insert (by show Table.roles ≠ .rolePermissions; decide))).bind fun id => ?_
  refine Triple.bind (R := fun _ => PermissionsSettled s₀) ?_ fun _ => ?_
  · refine Triple.ifSome carry_unlocked.stable (fun permissionIds _ => ?_) fun _ c _ hc => .inl hc
    refine (Triple.reject carry_unlocked.stable).bind fun _ => Triple.assuming fun _ => ?_
    refine (validatePermissionDependencies_closed carry_unlocked permissionIds).bind
      fun codes => Triple.assuming fun hclosed => ?_
    refine (carry_unlocked.keep (Services.Roles.validatePermissionGrantScope_outside _ _)).bind
      fun _ => ?_
    refine ((assignClosure_owes id permissionIds hclosed).post fun _ c hc => ?_).bind fun _ =>
      Triple.ret carry_settled.stable fun _ _ hc => hc
    obtain ⟨a, done, hgood, hc⟩ := hc
    exact .inr ⟨id, a, done, hgood, hc⟩
  · refine (record_settled _ _ _ _ _).bind fun _ => commit_settled.bind fun _ => ?_
    exact roleChange_outside (Services.Roles.get_within id)

/-- **`roles::update`** does not touch permissions. -/
theorem Services.Roles.update_owes (actorUserId : Option Nat) (actorDataScope : DataScope)
    (id : Nat) (req : UpdateRoleRequest) :
    Triple (permissionJudge s₀ p) p (fun _ => True)
      (Services.Roles.update actorUserId actorDataScope id req) fun _ _ => True := by
  refine (roleChange_outside (all_reject _ _)).bind fun _ => ?_
  refine (roleChange_outside (all_reject _ _)).bind fun _ => ?_
  refine (roleChange_outside (.whenever (Services.Roles.validateDeactivation_within id))).bind
    fun _ => ?_
  refine (roleChange_outside (.ifSome fun _ =>
    Services.Roles.validateScopeUpdate_within id actorDataScope _)).bind fun _ => ?_
  refine (roleChange_outside (.whenever
    (Services.Roles.validateActivation_within id actorUserId))).bind fun _ => ?_
  refine (roleChange_outside (.ifSome fun _ => all_reject _ _)).bind fun _ => ?_
  refine beginTx_unlocked.bind fun _ => ?_
  refine (carry_unlocked.keep (.bind (Prog.All.update (fun _ _ =>
    by show Table.roles ≠ .rolePermissions; decide) trivial) fun _ => .ret)).bind fun updated => ?_
  refine (Triple.reject carry_unlocked.stable).bind fun _ => Triple.assuming fun _ => ?_
  refine Triple.bind ((record_settled _ _ _ _ _).pre fun c hc => .inl hc) fun _ => ?_
  exact commit_settled.bind fun _ => roleChange_outside (Services.Roles.get_within id)

/-- **Every request owes good permissions**, and pays. -/
theorem changeRole_owes (change : RoleChange) :
    Triple (permissionJudge s₀ p) p (fun _ => True) (changeRole change) fun _ _ => True := by
  have hret : ∀ reply : Option RoleResponse, Triple (permissionJudge s₀ p) p (fun _ => True)
      (.ret reply : Db _) fun _ _ => True := fun reply =>
    Triple.ret (Judge.Stable.const _) fun _ _ h => h
  cases change with
  | create actorUserId actorDataScope req canAssignPermissions =>
    exact (Services.Roles.create_owes _ _ _ _).bind fun role => hret (some role)
  | assignPermissions actorUserId id req =>
    exact (Services.Roles.assignPermissions_owes _ _ _).bind fun _ => hret none
  | update actorUserId actorDataScope id req =>
    exact (Services.Roles.update_owes _ _ _ _).bind fun role => hret (some role)

end Requests

/-! ## Runs

The contract of the renewal, at every commit of every run.
-/

section Runs

variable {Req : Type} (request : Req → RoleChange)

/-- The program of a request, for the requests that clients send. -/
def changing (r : Req) : Db (Option RoleResponse) := changeRole (request r)

/-- The links of a role are good, if its permissions satisfy the demand. -/
theorem good_stored {s₀ : Server Table} {s : Store Table} (roleId : Nat)
    (hs : ∀ id, s.get .permissions id = s₀.store.get .permissions id) :
    (permissionRenewal s₀).Good ((permissionRenewal s₀).stored s roleId) ↔
      DependenciesClosed s roleId := by
  have hcarry : ∀ code, CarryCode s₀.store
      (linkedPermissions ((permissionRenewal s₀).stored s roleId)) code ↔
      CarryCode s (StoredPermission s roleId) code := by
    refine CarryCode.congr (fun id => ?_) fun id => (hs id).symm
    constructor
    · rintro ⟨⟨role, permission⟩, ⟨hrole, hsome⟩, hid⟩
      cases hrole
      cases hid
      exact hsome
    · exact fun hsome => ⟨(roleId, id), ⟨rfl, hsome⟩, rfl⟩
  exact ⟨fun h => h.congr hcarry, fun h => h.congr fun code => (hcarry code).symm⟩

/-- **Role permission dependencies stay closed.** In every run of requests that create roles,
replace their permissions and change their other columns, interleaved in any way, the permissions
of every role satisfy at every commit what `validate_permission_dependencies` demands, if they do
so at the start. The numbers of the tuples that are stored at the start have been drawn. -/
theorem permissionDependencies_closed {s₀ : Server Table} (h₀ : s₀.Wf)
    (htuples : ∀ id (row : LinkRow), s₀.store.get .rolePermissions id = some row →
      row.tuple < s₀.seq)
    (hstart : ∀ roleId, DependenciesClosed s₀.store roleId)
    {C : ReadCommitted.Config Table ApiError (Option RoleResponse) Req}
    (hC : Reachable (changing request) s₀ C) (roleId : Nat) :
    DependenciesClosed C.server.store roleId := by
  have hkept : ((permissionRenewal s₀).contract s₀ (permissionBase s₀)).Kept (changing request) s₀
      fun _ _ _ _ => True :=
    Renewal.kept (fun C h p => permissionBase_reachable h₀ h p) htuples
      (fun roleId => (good_stored roleId fun _ => rfl).2 (hstart roleId))
      fun p r => (changeRole_owes (request r)).pre fun _ _ => trivial
  have hsame := ((permissions_law s₀).reachable h₀ (fun _ => rfl) hC 0).1
  exact (good_stored roleId hsame).1 (Renewal.good hkept hC roleId)

end Runs

/-! ### Two administrators

Two requests that overlap leave the union of both groups, which is closed although nobody has
asked for it.
-/

namespace Sample

/-- The installation with permissions that depend on each other; `root` holds all of them. -/
def dependentRows : List (Write Table) :=
  [permission 7 "role:permissions:write", permission 8 "role:directory:read",
    permission 9 "permission:directory:read", permission 14 "organization:department:write",
    permission 15 "organization:department:read",
    grants 1 7, grants 1 8, grants 1 9, grants 1 14, grants 1 15]

def dependentServer : Server Table := { server with store := Store.ofRows (rows ++ dependentRows) }

theorem dependentServer_wf : dependentServer.Wf := Server.wf_ofRows (by decide)

/-- Permissions with dependents are held by `super_admin` only. -/
theorem dependentServer_closed (roleId : Nat) : DependenciesClosed dependentServer.store roleId := by
  have hholder : ∀ e : (Nat × Nat) × LinkRow, e ∈ dependentServer.store.rows .rolePermissions →
      ∀ p : Nat × PermissionRow, p ∈ dependentServer.store.rows .permissions → p.1 = e.1.2 →
        p.2.code = "role:permissions:write" ∨ p.2.code = "organization:department:write" →
          e.1.1 = 1 := by decide +kernel
  have hroot : ∀ code, code = "role:permissions:write" ∨ code = "organization:department:write" →
      CarryCode dependentServer.store (StoredPermission dependentServer.store roleId) code →
        roleId = 1 := by
    rintro code hcode ⟨id, hid, row, hrow, rfl⟩
    obtain ⟨link, hlink⟩ := Option.isSome_iff_exists.1 hid
    exact hholder ((roleId, id), link) (Store.mem_rows.2 hlink) (id, row) (Store.mem_rows.2 hrow)
      rfl hcode
  constructor
  · intro hw
    obtain rfl := hroot _ (.inl rfl) hw
    exact ⟨⟨8, rfl, ⟨1, "role:directory:read"⟩, rfl, rfl⟩,
      ⟨9, rfl, ⟨1, "permission:directory:read"⟩, rfl, rfl⟩⟩
  · intro hw
    obtain rfl := hroot _ (.inr rfl) hw
    exact ⟨15, rfl, ⟨1, "organization:department:read"⟩, rfl, rfl⟩

end Sample

/-- `root` gives the role `reporter` one group of permissions or the other. -/
def oneGroup (first : Bool) : RoleChange :=
  .assignPermissions (some 10) 4 ⟨if first then [7, 8, 9] else [14, 15]⟩

/-- Both requests have selected what they will delete before either inserts. -/
def groupsMixed : Stage Table ApiError (Option RoleResponse) Bool :=
  Stage.after (changing oneGroup) Sample.dependentServer
    [.start true, .start false, .run 1 6, .run 0 100, .run 1 100]

theorem groupsMixed_stored : StoredPermission groupsMixed.server.store 4 7 ∧
    StoredPermission groupsMixed.server.store 4 14 := by
  show (groupsMixed.server.store.get .rolePermissions ((4, 7) : Nat × Nat)).isSome = true ∧
    (groupsMixed.server.store.get .rolePermissions ((4, 14) : Nat × Nat)).isSome = true
  decide +kernel

theorem dependentServer_tuples (id : Nat × Nat) (row : LinkRow)
    (hrow : Sample.dependentServer.store.get .rolePermissions id = some row) :
    row.tuple < Sample.dependentServer.seq := by
  have hdrawn : ∀ e : (Nat × Nat) × LinkRow,
      e ∈ Sample.dependentServer.store.rows .rolePermissions → e.2.tuple < 20 := by decide +kernel
  exact hdrawn (id, row) (Store.mem_rows.2 hrow)

/-- The mixture of the two groups is stored, and is closed. -/
theorem permissionDependencies_mixed :
    (StoredPermission groupsMixed.config.server.store 4 7 ∧
        StoredPermission groupsMixed.config.server.store 4 14) ∧
      DependenciesClosed groupsMixed.config.server.store 4 := by
  have hreach : Reachable (changing oneGroup) Sample.dependentServer groupsMixed.config :=
    Stage.reachable_after _ _ _
  refine ⟨?_, permissionDependencies_closed oneGroup Sample.dependentServer_wf
    dependentServer_tuples Sample.dependentServer_closed hreach 4⟩
  rw [Stage.server_config]
  exact groupsMixed_stored

end ArcAdmin
