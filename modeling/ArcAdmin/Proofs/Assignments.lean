import ArcAdmin.ReadCommitted.Script
import ArcAdmin.ReadCommitted.Sweep
import ArcAdmin.Proofs.Outside
import ArcAdmin.Sample

/-!
# Replacing roles and permissions

`assign_permissions` and `assign_roles` replace a set of rows: a `DELETE` of the old ones, an
`INSERT` of each new one. Two replacements of one set do not wait for each other unless the second
`DELETE` has selected a row that the first one has locked, and what the first one has inserted is
not deleted by the second.

What decides is whether a row of the set is committed by somebody else between the snapshot of the
`DELETE` and the commit of the transaction. If none is, everything that is stored of the set when the
transaction commits was in the snapshot, so it has been deleted, and what remains is what the request
has asked for.

* **`Assignment`** — the requests, and what each of them asks for;
* **`Uncrossed`** — nobody has committed a row of the set in between;
* **`assign_owes`** — what the transaction of a request has made of the rows that it has locked, and that
  it has locked all that its `DELETE` could see;
* **`assignments_atomic`** — in runs whose commits are uncrossed, a stored set is the one that the latest
  request for it has asked for, or the initial one where no request for it has been committed.
-/

namespace ArcAdmin

open ReadCommitted
open Prog.All

/-! ## Requests

The requests that replace a set, the sets themselves, and what nobody else may commit in the
meantime.
-/

/-- A request that replaces the permissions of a role, or the roles of users. -/
inductive Assignment where
  | assignPermissions (actorUserId : Option Nat) (id : Nat) (req : UpdateRolePermissionsRequest)
  | assignRoles (actor : Option ActorContext) (userId : Nat) (req : AssignRolesRequest)
      (canGrantSuperAdmin : Bool)
  | assignRolesMany (actor : Option ActorContext) (req : BatchAssignRolesRequest)
      (canGrantSuperAdmin : Bool)

/-- The program of such a request. -/
def assign : Assignment → Db Unit
  | .assignPermissions actorUserId id req => Services.Roles.assignPermissions actorUserId id req
  | .assignRoles actor userId req canGrantSuperAdmin =>
    Services.Users.assignRoles actor userId req canGrantSuperAdmin
  | .assignRolesMany actor req canGrantSuperAdmin =>
    Services.Users.assignRolesMany actor req canGrantSuperAdmin

/-- A set that is replaced as a whole. -/
inductive AssignedSet where
  | permissionsOf (roleId : Nat)
  | rolesOf (userId : Nat)
deriving DecidableEq, Repr

/-- The set has that element in the store. -/
def AssignedSet.Stored (s : Store Table) : AssignedSet → Nat → Prop
  | .permissionsOf roleId, id => (s.get .rolePermissions (roleId, id)).isSome
  | .rolesOf userId, id => (s.get .userRoles (userId, id)).isSome

/-- The elements that a request asks for, if it replaces the set. -/
def Assignment.requested : Assignment → AssignedSet → Option (List Nat)
  | .assignPermissions _ id req, .permissionsOf roleId =>
    if id = roleId then some req.permissionIds else none
  | .assignRoles _ id req _, .rolesOf userId => if id = userId then some req.roleIds else none
  | .assignRolesMany _ req _, .rolesOf userId =>
    if userId ∈ req.userIds then some req.roleIds else none
  | _, _ => none

/-- The journal entry is about a row of the set: it tells of an insertion. -/
def AssignedSet.concerns (set : AssignedSet) (e : Entry Table) : Bool :=
  match set, e.key with
  | .permissionsOf roleId, some ⟨.rolePermissions, (id : Nat × Nat)⟩ => id.1 == roleId
  | .rolesOf userId, some ⟨.userRoles, (id : Nat × Nat)⟩ => id.1 == userId
  | _, _ => false

/-- The set whose replacement the event tells of, and how much of the journal had been written at the
snapshot of its `DELETE`. -/
def Event.replaced? : Event → Option (AssignedSet × Nat)
  | .permissionsReplaced roleId clearedAsOf => some (.permissionsOf roleId, clearedAsOf)
  | .rolesReplaced userId clearedAsOf => some (.rolesOf userId, clearedAsOf)
  | _ => none

/-- **Nobody has committed a row of a set that the transaction replaces** since the snapshot of the
`DELETE` that cleared it. -/
def Uncrossed (c : Conn Table) : Prop :=
  ∀ n ∈ c.notes, ∀ r ∈ n.2.replaced?.toList, ∀ e ∈ c.server.log.drop r.2, r.1.concerns e = false

instance : DecidablePred Uncrossed := fun c => by
  unfold Uncrossed
  infer_instance

/-! ## Births of tuples

A tuple of a join table is born with the event of its insertion and never changes. So what the
`DELETE` of a replacement has missed can be read off the journal.
-/

/-- A tuple never changes, and its insertion leaves an event. -/
theorem linkProtocol_comes {ev : LinkRow → Event} {old : Option LinkRow} {new : LinkRow}
    {evs : List Event} (h : linkProtocol ev old (some new) evs) : ∃ e ∈ evs, e = ev new := by
  cases old with
  | none => exact ⟨_, by rw [show evs = [ev new] from h]; exact List.mem_singleton_self _, rfl⟩
  | some _ => cases h

/-- How the rows of `role_permissions` come to be stored. -/
def permissionBirths : Origin (T := Table) .rolePermissions where
  later r₀ r := r₀ = r
  refl _ := rfl
  trans := Eq.trans
  born r e := e = .permissionAssigned (LinkRow.tuple r)
  born_later := by
    rintro _ _ _ rfl h
    exact h
  step h := .inr (linkProtocol_comes h)

/-- How the rows of `user_roles` come to be stored. -/
def roleBirths : Origin (T := Table) .userRoles where
  later r₀ r := r₀ = r
  refl _ := rfl
  trans := Eq.trans
  born _ e := e = .roleAssigned
  born_later _ h := h
  step h := .inr (linkProtocol_comes h)

/-- The permissions of a role. -/
def permissionsPart (roleId : Nat) : Part permissionBirths where
  Has (id : Nat × Nat) _ := id.1 = roleId
  has_of_later _ h := h

/-- The roles of a user. -/
def rolesPart (userId : Nat) : Part roleBirths where
  Has (id : Nat × Nat) _ := id.1 = userId
  has_of_later _ h := h

/-- **The transaction has replaced the set**: it has told so, and has locked all that is committed of the
set but what was born after the snapshot of its `DELETE`. -/
def AssignedSet.Cleared (c : Conn Table) : AssignedSet → Prop
  | .permissionsOf roleId =>
    ∃ a, c.Says (.permissionsReplaced roleId a) ∧ c.Swept (permissionsPart roleId) a
  | .rolesOf userId => ∃ a, c.Says (.rolesReplaced userId a) ∧ c.Swept (rolesPart userId) a

/-! ## What a request owes

For each set that it replaces, a request owes that all it could see has been deleted and all it
asks for has been inserted.
-/

/-- What the transaction of a request has made of the rows that it has locked. Of the set that it
replaces, what is asked for is left; of the other table it has locked nothing. And the set
has been cleared: it has been told of, and all that its `DELETE` could see is locked. -/
def Assignment.Owes : Assignment → Conn Table → Prop
  | .assignPermissions _ id req, c =>
    c.Replaced .rolePermissions (fun (e : Nat × Nat) => e.1 = id)
        (fun (e : Nat × Nat) => e.2 ∈ req.permissionIds) ∧
      c.Replaced .userRoles (fun _ => False) (fun _ => False) ∧
      (AssignedSet.permissionsOf id).Cleared c
  | .assignRoles _ id req _, c =>
    c.Replaced .rolePermissions (fun _ => False) (fun _ => False) ∧
      c.Replaced .userRoles (fun (e : Nat × Nat) => e.1 = id)
        (fun (e : Nat × Nat) => e.2 ∈ req.roleIds) ∧
      (AssignedSet.rolesOf id).Cleared c
  | .assignRolesMany _ req _, c =>
    c.Replaced .rolePermissions (fun _ => False) (fun _ => False) ∧
      c.Replaced .userRoles (fun (e : Nat × Nat) => e.1 ∈ req.userIds)
        (fun (e : Nat × Nat) => e.2 ∈ req.roleIds) ∧
      ∀ id ∈ req.userIds, (AssignedSet.rolesOf id).Cleared c

/-- Nothing is asked of the others but that their accounts are right; what matters is what a request
owes itself. -/
def assignmentContract : Contract Table where
  base _ c := c.Wf ∧ c.Accounted permissionBirths ∧ c.Accounted roleBirths
  inv _ := True
  guar _ _ := True

theorem assignmentContract_wf : assignmentContract.WellFormed := fun _ _ h => h.1

theorem accounts_permissions : assignmentContract.Accounts permissionBirths := fun _ _ h => h.2.1

theorem accounts_roles : assignmentContract.Accounts roleBirths := fun _ _ h => h.2.2

namespace AssignedSet

variable {set : AssignedSet} {c c' : Conn Table}

theorem Cleared.framed {φ : Change Table} (hf : Framed φ c c') (h : set.Cleared c) :
    set.Cleared c' := by
  cases set with
  | permissionsOf roleId =>
    obtain ⟨a, htold, hswept⟩ := h
    exact ⟨a, htold.framed hf, Conn.SweptBut.framed hf hswept⟩
  | rolesOf userId =>
    obtain ⟨a, htold, hswept⟩ := h
    exact ⟨a, htold.framed hf, Conn.SweptBut.framed hf hswept⟩

theorem Cleared.noted (h : set.Cleared c) (e : Event) : set.Cleared (c.noted e) := by
  cases set with
  | permissionsOf roleId =>
    obtain ⟨a, htold, hswept⟩ := h
    exact ⟨a, htold.noted e, Conn.SweptBut.noted hswept e⟩
  | rolesOf userId =>
    obtain ⟨a, htold, hswept⟩ := h
    exact ⟨a, htold.noted e, Conn.SweptBut.noted hswept e⟩

theorem stable_cleared {p : Nat} (set : AssignedSet) :
    (assignmentContract.judge p).Stable fun c => set.Cleared c := by
  cases set with
  | permissionsOf roleId =>
    exact .exists fun a => (Conn.Says.stable Contract.private_judge _).and
      (Contract.stable_swept accounts_permissions a)
  | rolesOf userId =>
    exact .exists fun a => (Conn.Says.stable Contract.private_judge _).and
      (Contract.stable_swept accounts_roles a)

end AssignedSet

section Owes

variable {p : Nat} {G : Conn Table → Prop} {α : Type} {m : Db α}
  {mine want done mine' want' done' : Nat × Nat → Prop}

/-- Programs that commit nothing do not depend on what is owed. -/
theorem owing_of {φ : Change Table} {P : Conn Table → Prop} {Q : α → Conn Table → Prop}
    (hm : m.All (Act.Within φ)) (h : Triple (assignmentContract.judge p) p P m Q) :
    Triple ((assignmentContract.judge p).owing G) p P m Q := by
  refine h.owing (hm.mono fun a ha => ?_)
  rintro rfl
  cases ha

/-- Nothing is claimed of what happens before the transaction. -/
theorem before {φ : Change Table} {P : Conn Table → Prop} (hm : m.All (Act.Within φ)) :
    Triple ((assignmentContract.judge p).owing G) p P m fun _ _ => True :=
  (Triple.within (P := fun _ => True) (Judge.Stable.const _) (fun _ _ _ h => h) hm).pre
    fun _ _ => trivial

/-- Statements on other tables keep what is being replaced. -/
theorem alone {t : Table} {mine want done : t.Id → Prop} (hm : m.All (Act.Outside t)) :
    Triple (assignmentContract.judge p) p (fun c => c.Replacing t mine want done) m
      fun _ c => c.Replacing t mine want done :=
  Triple.outside (Contract.stable_replacing assignmentContract_wf)
    (fun _ _ hs h => h.sameTable hs) hm

/-! ### The statements that replace

The `DELETE`, and the loop of `INSERT`s behind it.
-/

/-- What the statement selects is the tuple of its snapshot. -/
theorem clearPermissions_seen {roleId : Nat} (s : Snap) (id : Nat × Nat) (row : LinkRow)
    (hrow : s.store.get .rolePermissions id = some row) :
    (Repositories.Roles.clearPermissionsStmt roleId).seen s id row = true := by
  show LinkRow.isStored row (s.store.get .rolePermissions id) = true
  rw [hrow]
  exact row.isStored_some

theorem clearRoles_seen {userId : Nat} (s : Snap) (id : Nat × Nat) (row : LinkRow)
    (hrow : s.store.get .userRoles id = some row) :
    (Repositories.Users.clearRolesStmt userId).seen s id row = true := by
  show LinkRow.isStored row (s.store.get .userRoles id) = true
  rw [hrow]
  exact row.isStored_some

theorem assignPermission_replaces {roleId : Nat} (hmine : ∀ id, mine (roleId, id)) (id : Nat)
    (hwant : want (roleId, id)) (done : Nat × Nat → Prop) :
    Triple (assignmentContract.judge p) p
      (fun c => c.Replacing .rolePermissions mine want done)
      (Repositories.Roles.assignPermission roleId id)
      fun _ c => c.Replacing .rolePermissions mine want fun e => done e ∨ e = (roleId, id) := by
  refine (Triple.addReplacing assignmentContract_wf (k := (roleId, id)) (fun _ => rfl) (hmine id)
    hwant).bind fun _ => ?_
  refine alone ?_
  exact .bind (references_outside (by decide) _ _ _) fun _ => references_outside (by decide) _ _ _

/-- **The permissions of a role have been replaced.** -/
theorem assignPermissions_replaces (roleId : Nat) (permissionIds : List Nat) :
    Triple (assignmentContract.judge p) p
      (fun c => c.Replacing .rolePermissions (fun e : Nat × Nat => e.1 = roleId)
        (fun e : Nat × Nat => e.2 ∈ permissionIds) fun _ => False)
      (Repositories.Roles.assignPermissions roleId permissionIds)
      fun _ c => c.Replaced .rolePermissions (fun e : Nat × Nat => e.1 = roleId)
        fun e : Nat × Nat => e.2 ∈ permissionIds := by
  refine (Triple.replace assignmentContract_wf (fun e : Nat × Nat => e.1 == roleId)
    (fun _ _ _ => rfl) clearPermissions_seen (fun e he => eq_of_beq he)
    (fun id => (roleId, id)) fun id hid done => ?_).post fun _ c hc => ?_
  · exact assignPermission_replaces (fun _ => rfl) id hid done
  · refine hc.mono fun e he => .inr ⟨e.2, he.2, ?_⟩
    rw [← he.1]
    rfl

theorem assignRole_replaces {userId : Nat} (hmine : ∀ id, mine (userId, id)) (id : Nat)
    (hwant : want (userId, id)) (done : Nat × Nat → Prop) :
    Triple (assignmentContract.judge p) p (fun c => c.Replacing .userRoles mine want done)
      (Repositories.Users.assignRole userId id)
      fun _ c => c.Replacing .userRoles mine want fun e => done e ∨ e = (userId, id) := by
  refine (Triple.addReplacing assignmentContract_wf (k := (userId, id)) (fun _ => rfl) (hmine id)
    hwant).bind fun _ => ?_
  refine alone ?_
  exact .bind (references_outside (by decide) _ _ _) fun _ => references_outside (by decide) _ _ _

/-- **The roles of one user have been replaced**, besides those that were replaced before. -/
theorem assignRoles_replaces (userId : Nat) (roleIds : List Nat)
    (hmine : ∀ e : Nat × Nat, e.1 = userId → mine e) :
    Triple (assignmentContract.judge p) p
      (fun c => c.Replacing .userRoles mine (fun e : Nat × Nat => e.2 ∈ roleIds) done)
      (Repositories.Users.assignRoles userId roleIds)
      fun _ c => c.Replacing .userRoles mine (fun e : Nat × Nat => e.2 ∈ roleIds)
        fun e => (done e ∧ e.1 ≠ userId) ∨ (e.1 = userId ∧ e.2 ∈ roleIds) := by
  refine (Triple.replace assignmentContract_wf (fun e : Nat × Nat => e.1 == userId)
    (fun _ _ _ => rfl) clearRoles_seen (fun e he => hmine e (eq_of_beq he))
    (fun id => (userId, id)) fun id hid done => ?_).post fun _ c hc => ?_
  · exact assignRole_replaces (fun _ => hmine _ rfl) id hid done
  · refine hc.mono fun e he => ?_
    rcases he with ⟨hdone, hne⟩ | ⟨huser, hrole⟩
    · exact .inl ⟨hdone, by simpa using hne⟩
    · refine .inr ⟨e.2, hrole, ?_⟩
      rw [← huser]
      rfl

/-- **All permissions of the role that the `DELETE` could see** are locked in the end. -/
theorem assignPermissions_sweeps (roleId : Nat) (permissionIds : List Nat) :
    Triple (assignmentContract.judge p) p (fun _ => True)
      (Repositories.Roles.assignPermissions roleId permissionIds)
      fun a c => c.Swept (permissionsPart roleId) a := by
  refine Triple.sweepThen (d := Repositories.Roles.clearPermissionsStmt roleId)
    assignmentContract_wf accounts_permissions (fun _ id _ hid => ?_) (fun s id r₀ r hr₀ hlater => ?_)
    ?_
  · exact beq_iff_eq.2 hid
  · cases hlater
    exact clearPermissions_seen s id r₀ hr₀
  · refine Prog.All.forEach fun id => ?_
    exact .bind (Prog.All.insert fun _ => trivial) fun _ =>
      .bind (references_within _ _ _) fun _ => references_within _ _ _

/-- **All roles of the user that the `DELETE` could see** are locked in the end. -/
theorem assignRoles_sweeps (userId : Nat) (roleIds : List Nat) :
    Triple (assignmentContract.judge p) p (fun _ => True)
      (Repositories.Users.assignRoles userId roleIds)
      fun a c => c.Swept (rolesPart userId) a := by
  refine Triple.sweepThen (d := Repositories.Users.clearRolesStmt userId)
    assignmentContract_wf accounts_roles (fun _ id _ hid => ?_) (fun s id r₀ r hr₀ hlater => ?_) ?_
  · exact beq_iff_eq.2 hid
  · cases hlater
    exact clearRoles_seen s id r₀ hr₀
  · exact Prog.All.forEach fun id => Repositories.Users.assignRole_within free_anything _ _

/-! ### The transactions

What has been replaced so far is carried through the transaction, one user after the other, up to
its commit.
-/

/-- What is being replaced in the two tables, and the sets that have been replaced so far. -/
structure UnderWay (mine want done mine' want' done' : Nat × Nat → Prop)
    (cleared : AssignedSet → Prop) (c : Conn Table) : Prop where
  permissions : c.Replacing Table.rolePermissions mine want done
  roles : c.Replacing Table.userRoles mine' want' done'
  cleared : ∀ set, cleared set → set.Cleared c

variable {cleared : AssignedSet → Prop}

theorem stable_underWay : ((assignmentContract.judge p).owing G).Stable
    (UnderWay mine want done mine' want' done' cleared) := by
  intro c c' hr h
  have hr' : (assignmentContract.judge p).rely c c' := hr
  exact ⟨Contract.stable_replacing assignmentContract_wf c c' hr' h.permissions,
    Contract.stable_replacing assignmentContract_wf c c' hr' h.roles,
    fun set hset => AssignedSet.stable_cleared set c c' hr' (h.cleared set hset)⟩

/-- An act that does not begin or end the transaction leaves the cleared sets cleared. -/
theorem AssignedSet.Cleared.outside {t : Table} {set : AssignedSet} {a : Act Table}
    (ha : a.Outside t) {c : Conn Table} (h : set.Cleared c) : set.Cleared (a.step p c).2 := by
  rcases ha.cases with ⟨e, rfl⟩ | hwithin
  · rw [Act.step_note]
    exact h.noted e
  · exact h.framed (hwithin.framed p c)

/-- Other statements leave both tables alone. -/
theorem UnderWay.outside (hp : m.All (Act.Outside .rolePermissions))
    (hr : m.All (Act.Outside .userRoles)) :
    Triple ((assignmentContract.judge p).owing G) p
      (UnderWay mine want done mine' want' done' cleared) m
      fun _ => UnderWay mine want done mine' want' done' cleared := by
  have hst : ∀ {t : Table} {mine want done : t.Id → Prop},
      ((assignmentContract.judge p).owing G).Stable fun c => c.Replacing t mine want done :=
    fun {_ _ _ _} => Contract.stable_replacing (K := assignmentContract) (p := p)
      assignmentContract_wf
  have hperm := Triple.outside (J := (assignmentContract.judge p).owing G) (p := p)
    (P := fun c => c.Replacing Table.rolePermissions mine want done) hst
    (fun _ _ hs h => h.sameTable hs) hp
  have hrole := Triple.outside (J := (assignmentContract.judge p).owing G) (p := p)
    (P := fun c => c.Replacing Table.userRoles mine' want' done') hst
    (fun _ _ hs h => h.sameTable hs) hr
  have hcleared := Triple.of_all (J := (assignmentContract.judge p).owing G) (p := p)
    (P := fun c => ∀ set : AssignedSet, cleared set → set.Cleared c)
    (Judge.Stable.forall fun set => fun c c' hr h hset =>
      AssignedSet.stable_cleared set c c' hr (h hset))
    (fun _ ha _ _ hc => ⟨fun h => absurd h ha.ne_commit, fun set hset => (hc set hset).outside ha⟩)
    hp
  exact (hperm.and (hrole.and hcleared)).conseq
    (fun _ hc => ⟨hc.permissions, hc.roles, hc.cleared⟩) fun _ _ hc => ⟨hc.1, hc.2.1, hc.2.2⟩

theorem private_owing : ((assignmentContract.judge p).owing G).Private :=
  Contract.private_judge (K := assignmentContract) (p := p)

/-- A new transaction has replaced nothing. -/
theorem begin_underWay (mine want mine' want' : Nat × Nat → Prop) :
    Triple ((assignmentContract.judge p).owing G) p (fun _ => True) (beginTx : Db Unit)
      fun _ => UnderWay mine want (fun _ => False) mine' want' (fun _ => False) fun _ => False :=
  (Triple.beginTx private_owing).post fun _ _ hc =>
    ⟨.of_begun hc fun _ h => h, .of_begun hc fun _ h => h, fun _ h => h.elim⟩

/-- Whoever owes nothing but what it has replaced may commit. -/
theorem commit_owing {P : Conn Table → Prop}
    (hst : ((assignmentContract.judge p).owing G).Stable P)
    (h : ∀ c, P c → G c) :
    Triple ((assignmentContract.judge p).owing G) p P (commitTx : Db Unit) fun _ _ => True := by
  refine (Triple.commitTx private_owing hst fun c _ hc => ⟨?_, h c hc⟩).post fun _ _ _ => trivial
  exact ⟨trivial, fun _ _ => trivial⟩

/-- **The set has been cleared**, and the transaction says so. -/
theorem note_cleared (set : AssignedSet) {e : Event} {swept : Conn Table → Prop}
    (hst : ((assignmentContract.judge p).owing G).Stable swept)
    (hcleared : ∀ c, swept c → set.Cleared (c.noted e)) :
    Triple ((assignmentContract.judge p).owing G) p
      (fun c => swept c ∧ UnderWay mine want done mine' want' done' cleared c)
      (noteEvent e : Db Unit)
      fun _ => UnderWay mine want done mine' want' done' fun i => i = set ∨ cleared i := by
  refine Triple.noteEvent (hst.and stable_underWay) stable_underWay fun c _ hc => ?_
  refine ⟨hc.2.permissions.sameTable (.noted _ c e), hc.2.roles.sameTable (.noted _ c e),
    fun i hi => ?_⟩
  rcases hi with rfl | hi
  · exact hcleared c hc.1
  · exact (hc.2.cleared i hi).noted e

/-- **What `assign_permissions` owes.** -/
theorem assignPermissions_owes (actorUserId : Option Nat) (id : Nat)
    (req : UpdateRolePermissionsRequest) :
    Triple ((assignmentContract.judge p).owing
        (Assignment.assignPermissions actorUserId id req).Owes) p (fun c => c.tx = none)
      (Services.Roles.assignPermissions actorUserId id req) fun _ _ => True := by
  refine (before (Repositories.Roles.findById_within (φ := tables []) id)).bind fun role => ?_
  refine (before (φ := tables []) (all_okOr _ _)).bind fun role => ?_
  refine (before (φ := tables []) (all_reject _ _)).bind fun _ => ?_
  refine (begin_underWay (fun e => e.1 = id) (fun e => e.2 ∈ req.permissionIds) (fun _ => False)
    fun _ => False).bind fun _ => ?_
  refine (UnderWay.outside (Services.Roles.validatePermissionDependencies_outside _)
    (Services.Roles.validatePermissionDependencies_outside _)).bind fun codes => ?_
  refine (UnderWay.outside (Services.Roles.validatePermissionGrantScope_outside _ _)
    (Services.Roles.validatePermissionGrantScope_outside _ _)).bind fun _ => ?_
  refine (UnderWay.outside (Repositories.Roles.permissionIdsByRole_outside id)
    (Repositories.Roles.permissionIdsByRole_outside id)).bind
    fun previous => ?_
  -- the permissions are replaced, and the roles of users are left alone
  have hreplaced : Triple ((assignmentContract.judge p).owing
      (Assignment.assignPermissions actorUserId id req).Owes) p
      (UnderWay (fun e => e.1 = id) (fun e => e.2 ∈ req.permissionIds) (fun _ => False)
        (fun _ => False) (fun _ => False) (fun _ => False) fun _ => False)
      (Repositories.Roles.assignPermissions id req.permissionIds)
      fun a c => c.Swept (permissionsPart id) a ∧ UnderWay (fun e => e.1 = id)
        (fun e => e.2 ∈ req.permissionIds) (fun e => e.1 = id ∧ e.2 ∈ req.permissionIds)
        (fun _ => False) (fun _ => False) (fun _ => False) (fun _ => False) c := by
    refine owing_of (Repositories.Roles.assignPermissions_within
      (φ := tables [.rolePermissions]) (free_tables (by decide)) id req.permissionIds) ?_
    refine ((assignPermissions_sweeps id req.permissionIds).and
      ((assignPermissions_replaces id req.permissionIds).and (alone
        (Repositories.Roles.assignPermissions_outside (by decide) id req.permissionIds)))).conseq
      (fun _ hc => ⟨trivial, hc.permissions, hc.roles⟩) fun _ c hc => ?_
    exact ⟨hc.1, hc.2.1, hc.2.2, fun _ h => h.elim⟩
  refine hreplaced.bind fun a => ?_
  refine (note_cleared (.permissionsOf id) ?_ fun c hc =>
    ⟨a, .of_noted c _, Conn.SweptBut.noted hc _⟩).bind fun _ => ?_
  · exact Contract.stable_swept (K := assignmentContract) (p := p) accounts_permissions a
  refine (UnderWay.outside (Repositories.AuditLogs.record_outside (by decide) _ _ _ _ _)
    (Repositories.AuditLogs.record_outside (by decide) _ _ _ _ _)).bind fun _ => ?_
  exact commit_owing stable_underWay fun _ hc =>
    ⟨hc.permissions, hc.roles.mono fun _ h => h.1, hc.cleared _ (.inl rfl)⟩

/-- **One user's turn of an assignment.** -/
theorem replaceRoles_underWay (superAdminRoleId actorUserId : Option Nat) (userId : Nat)
    (roleIds previousRoleIds : List Nat) (hmine : ∀ e : Nat × Nat, e.1 = userId → mine e)
    (done : Nat × Nat → Prop) (cleared : AssignedSet → Prop) :
    Triple ((assignmentContract.judge p).owing G) p
      (UnderWay (fun _ => False) (fun _ => False) (fun _ => False) mine (fun e => e.2 ∈ roleIds) done
        cleared)
      (Services.Users.replaceRoles superAdminRoleId actorUserId userId roleIds previousRoleIds)
      fun _ => UnderWay (fun _ => False) (fun _ => False) (fun _ => False) mine
        (fun e => e.2 ∈ roleIds) (fun e => (done e ∧ e.1 ≠ userId) ∨ (e.1 = userId ∧ e.2 ∈ roleIds))
        fun set => set = .rolesOf userId ∨ cleared set := by
  have hguard : ∀ t : Table, t ≠ .roles →
      (Prog.whenever (!superAdminRoleId.any roleIds.contains)
        (Services.Users.protectLastSuperAdmin userId)).All (Act.Outside t) := fun t ht =>
    Prog.All.whenever (Services.Users.protectLastSuperAdmin_outside ht userId)
  have haudit : ∀ t : Table, t ∉ Repositories.auditTables → ∀ action details,
      (Repositories.AuditLogs.record actorUserId action "user" (some userId) details).All
        (Act.Outside t) := fun t ht action details =>
    Repositories.AuditLogs.record_outside ht _ _ _ _ _
  refine (UnderWay.outside (hguard _ (by decide)) (hguard _ (by decide))).bind fun _ => ?_
  have hreplaced : Triple ((assignmentContract.judge p).owing G) p
      (UnderWay (fun _ => False) (fun _ => False) (fun _ => False) mine (fun e => e.2 ∈ roleIds) done
        cleared)
      (Repositories.Users.assignRoles userId roleIds)
      fun a c => c.Swept (rolesPart userId) a ∧
        UnderWay (fun _ => False) (fun _ => False) (fun _ => False) mine (fun e => e.2 ∈ roleIds)
          (fun e => (done e ∧ e.1 ≠ userId) ∨ (e.1 = userId ∧ e.2 ∈ roleIds)) cleared c := by
    have hwithin : (Repositories.Users.assignRoles userId roleIds).All
        (Act.Within (tables [.userRoles])) :=
      Repositories.Users.assignRoles_within (free_tables (by decide)) userId roleIds
    -- the users whose turn it was before are cleared still
    have hcleared : Triple (assignmentContract.judge p) p
        (fun c => ∀ set : AssignedSet, cleared set → set.Cleared c)
        (Repositories.Users.assignRoles userId roleIds)
        fun _ c => ∀ set : AssignedSet, cleared set → set.Cleared c :=
      Triple.within (Judge.Stable.forall fun set => fun c c' hr h hset =>
        AssignedSet.stable_cleared set c c' hr (h hset))
        (fun _ _ hf h set hset => (h set hset).framed hf) hwithin
    refine owing_of hwithin ?_
    refine ((assignRoles_sweeps userId roleIds).and ((alone
      (Repositories.Users.assignRoles_outside (by decide) userId roleIds)).and
      ((assignRoles_replaces userId roleIds hmine).and hcleared))).conseq
      (fun _ hc => ⟨trivial, hc.permissions, hc.roles, hc.cleared⟩) fun _ c hc => ?_
    exact ⟨hc.1, hc.2.1, hc.2.2.1, hc.2.2.2⟩
  refine hreplaced.bind fun a => ?_
  refine (note_cleared (.rolesOf userId) ?_ fun c hc =>
    ⟨a, .of_noted c _, Conn.SweptBut.noted hc _⟩).bind fun _ => ?_
  · exact Contract.stable_swept (K := assignmentContract) (p := p) accounts_roles a
  refine (UnderWay.outside ?_ ?_).bind fun _ =>
    UnderWay.outside (haudit _ (by decide) _ _) (haudit _ (by decide) _ _)
  · exact Prog.All.ifSome fun _ => Prog.All.whenever (haudit _ (by decide) _ _)
  · exact Prog.All.ifSome fun _ => Prog.All.whenever (haudit _ (by decide) _ _)

/-- **What `assign_roles` owes.** -/
theorem assignRoles_owes (actor : Option ActorContext) (userId : Nat) (req : AssignRolesRequest)
    (canGrantSuperAdmin : Bool) :
    Triple ((assignmentContract.judge p).owing
        (Assignment.assignRoles actor userId req canGrantSuperAdmin).Owes) p (fun c => c.tx = none)
      (Services.Users.assignRoles actor userId req canGrantSuperAdmin) fun _ _ => True := by
  refine (before (Services.Users.ensureActorCanAccess_within (φ := tables []) actor userId)).bind
    fun _ => ?_
  refine (before (Repositories.Roles.idByCode_within (φ := tables []) "super_admin")).bind
    fun superAdminRoleId => ?_
  refine (before (Services.Users.validateRoleGrantScope_within (φ := tables []) _ req.roleIds
    canGrantSuperAdmin)).bind fun _ => ?_
  refine (before (Repositories.Users.roleIdsByUser_within (φ := tables []) userId)).bind
    fun previous => ?_
  refine (begin_underWay (fun _ => False) (fun _ => False) (fun e => e.1 = userId)
    fun e => e.2 ∈ req.roleIds).bind fun _ => ?_
  refine (replaceRoles_underWay superAdminRoleId _ userId req.roleIds previous (fun _ he => he)
    _ _).bind fun _ => ?_
  refine commit_owing stable_underWay fun c hc => ?_
  exact ⟨hc.permissions.mono fun _ h => h.1, hc.roles.mono fun _ h => .inr h,
    hc.cleared _ (.inl rfl)⟩

/-- **What `assign_roles_many` owes**: one turn for every user. -/
theorem assignRolesMany_owes (actor : Option ActorContext) (req : BatchAssignRolesRequest)
    (canGrantSuperAdmin : Bool) :
    Triple ((assignmentContract.judge p).owing
        (Assignment.assignRolesMany actor req canGrantSuperAdmin).Owes) p (fun c => c.tx = none)
      (Services.Users.assignRolesMany actor req canGrantSuperAdmin) fun _ _ => True := by
  refine (before (φ := tables []) (all_okOr actor _)).bind fun actor => ?_
  refine (before (Services.Users.validateBatchUserIds_within (φ := tables []) req.userIds
    actor.userId)).bind fun _ => ?_
  refine (before (Services.Users.validateRoleGrantScope_within (φ := tables []) _ req.roleIds
    canGrantSuperAdmin)).bind fun _ => ?_
  refine (before (φ := tables []) (Prog.All.forEach fun userId =>
    Services.Users.ensureActorCanAccess_within (some actor) userId)).bind fun _ => ?_
  refine (before (Repositories.Roles.idByCode_within (φ := tables []) "super_admin")).bind
    fun superAdminRoleId => ?_
  refine (begin_underWay (fun _ => False) (fun _ => False) (fun e => e.1 ∈ req.userIds)
    fun e => e.2 ∈ req.roleIds).bind fun _ => ?_
  -- the users whose turn it has been have the roles that are asked for
  let Turned (users : List Nat) : Conn Table → Prop :=
    UnderWay (fun _ => False) (fun _ => False) (fun _ => False) (fun e => e.1 ∈ req.userIds)
      (fun e => e.2 ∈ req.roleIds) (fun e => e.1 ∈ users ∧ e.2 ∈ req.roleIds)
      fun set => ∃ id ∈ users, set = .rolesOf id
  have hturn : ∀ users, ∀ userId ∈ req.userIds, Triple ((assignmentContract.judge p).owing
      (Assignment.assignRolesMany (some actor) req canGrantSuperAdmin).Owes) p (Turned users) (do
        let previousRoleIds ← Repositories.Users.roleIdsByUser userId
        Services.Users.replaceRoles superAdminRoleId (some actor.userId) userId req.roleIds
          previousRoleIds) fun _ => Turned (users ++ [userId]) := by
    intro users userId huser
    refine (UnderWay.outside (Repositories.Users.roleIdsByUser_outside userId)
      (Repositories.Users.roleIdsByUser_outside userId)).bind fun previous => ?_
    refine (replaceRoles_underWay superAdminRoleId _ userId req.roleIds previous (fun e he => ?_)
      _ _).post fun _ c hc => ⟨hc.permissions, hc.roles.mono fun e he => ?_, ?_⟩
    · show e.1 ∈ req.userIds
      rw [he]
      exact huser
    · obtain ⟨husers, hrole⟩ := he
      by_cases hid : e.1 = userId
      · exact .inr ⟨hid, hrole⟩
      · have hin : e.1 ∈ users := by simpa [hid] using husers
        exact .inl ⟨⟨hin, hrole⟩, hid⟩
    · rintro set ⟨id, hid, rfl⟩
      rcases List.mem_append.1 hid with hin | hlast
      · exact hc.cleared _ (.inr ⟨id, hin, rfl⟩)
      · rw [List.mem_singleton.1 hlast]
        exact hc.cleared _ (.inl rfl)
  refine ((Triple.forEachDone (I := Turned) (fun _ => stable_underWay) hturn []).pre
    fun c hc => ?_).bind fun _ => commit_owing stable_underWay fun c hc => ?_
  · refine ⟨hc.permissions, hc.roles.mono fun e he => (by cases he.1), ?_⟩
    rintro set ⟨id, hid, _⟩
    cases hid
  · exact ⟨hc.permissions.mono fun _ h => h.1, hc.roles, fun id hid => hc.cleared _ ⟨id, hid, rfl⟩⟩

/-- **What every request owes.** -/
theorem assign_owes (a : Assignment) :
    Triple ((assignmentContract.judge p).owing a.Owes) p (fun c => c.tx = none) (assign a)
      fun _ _ => True := by
  cases a with
  | assignPermissions actorUserId id req => exact assignPermissions_owes actorUserId id req
  | assignRoles actor userId req canGrantSuperAdmin =>
    exact assignRoles_owes actor userId req canGrantSuperAdmin
  | assignRolesMany actor req canGrantSuperAdmin =>
    exact assignRolesMany_owes actor req canGrantSuperAdmin

end Owes

/-! ## Runs

From one commit to a run: the set that is stored is the one of its latest request.
-/

section Runs

variable {Req : Type} (request : Req → Assignment)

/-- The program of a request, for the requests that clients send. -/
def assigning (r : Req) : Db Unit := assign (request r)

theorem assignments_kept {s₀ : Server Table} (h₀ : s₀.Wf) :
    assignmentContract.KeptWith (assigning request) s₀ (fun r => (request r).Owes)
      fun _ _ _ _ => True where
  base _ hC p := ⟨hC.wf h₀ p, permissionBirths.reachable h₀ hC p, roleBirths.reachable h₀ hC p⟩
  init := trivial
  advance _ _ _ _ := trivial
  prog _ r := assign_owes (request r)

/-- Where nobody has crossed the transaction, nothing has been born in a set that it replaces. -/
theorem Uncrossed.since_eq_nil {c : Conn Table} (h : Uncrossed c) {set : AssignedSet} {e : Event}
    {a : Nat} (he : (none, e) ∈ c.notes) (hreplaced : e.replaced? = some (set, a)) {k : Key Table}
    (hk : ∀ entry : Entry Table, entry.key = some k → set.concerns entry = true) :
    c.server.since a k = [] := by
  by_contra hne
  obtain ⟨ev, hev⟩ := List.exists_mem_of_ne_nil _ hne
  obtain ⟨entry, hentry, hkey, _⟩ := mem_history.1 hev
  have hno : set.concerns entry = false :=
    h (none, e) he (set, a) (by rw [hreplaced]; exact List.mem_singleton_self _) entry hentry
  rw [hk entry hkey] at hno
  cases hno

/-- **A row of a set that has been cleared** is locked by the transaction, if it sees it at all. -/
theorem Uncrossed.owns_permission {tx : Tx Table} {s : Server Table}
    (h : Uncrossed ⟨some tx, s⟩) (hwf : (⟨some tx, s⟩ : Conn Table).Wf) {roleId : Nat}
    (hcleared : (AssignedSet.permissionsOf roleId).Cleared ⟨some tx, s⟩) (id : Nat)
    (hview : ((tx.view s.store).get .rolePermissions ((roleId, id) : Nat × Nat)).isSome) :
    (⟨some tx, s⟩ : Conn Table).Owns ⟨.rolePermissions, ((roleId, id) : Nat × Nat)⟩ := by
  obtain ⟨a, htold, hswept⟩ := hcleared
  obtain ⟨row, hrow⟩ := Option.isSome_iff_exists.1 hview
  refine hswept.owns hwf rfl (fun i r hi e he => ?_) hrow rfl
  have hnil := h.since_eq_nil (htold rfl) rfl (k := ⟨.rolePermissions, i⟩) fun entry hkey => by
    have hid : i.1 = roleId := hi
    simpa [AssignedSet.concerns, hkey] using hid
  rw [hnil] at he
  cases he

theorem Uncrossed.owns_role {tx : Tx Table} {s : Server Table}
    (h : Uncrossed ⟨some tx, s⟩) (hwf : (⟨some tx, s⟩ : Conn Table).Wf) {userId : Nat}
    (hcleared : (AssignedSet.rolesOf userId).Cleared ⟨some tx, s⟩) (id : Nat)
    (hview : ((tx.view s.store).get .userRoles ((userId, id) : Nat × Nat)).isSome) :
    (⟨some tx, s⟩ : Conn Table).Owns ⟨.userRoles, ((userId, id) : Nat × Nat)⟩ := by
  obtain ⟨a, htold, hswept⟩ := hcleared
  obtain ⟨row, hrow⟩ := Option.isSome_iff_exists.1 hview
  refine hswept.owns hwf rfl (fun i r hi e he => ?_) hrow rfl
  have hnil := h.since_eq_nil (htold rfl) rfl (k := ⟨.userRoles, i⟩) fun entry hkey => by
    have hid : i.1 = userId := hi
    simpa [AssignedSet.concerns, hkey] using hid
  rw [hnil] at he
  cases he

/-- **What the commit of a request makes of a set**, if nobody has crossed it: what the request asks for,
or nothing, where it does not ask for the set. -/
theorem AssignedSet.stored_commit {a : Assignment} {p : Nat} {tx : Tx Table} {s : Server Table}
    (hwf : (⟨some tx, s⟩ : Conn Table).Wf) (howes : a.Owes ⟨some tx, s⟩)
    (hcross : Uncrossed ⟨some tx, s⟩) (set : AssignedSet) :
    match a.requested set with
    | none => ∀ id, set.Stored (s.commit p tx).store id ↔ set.Stored s.store id
    | some ids => ∀ id, set.Stored (s.commit p tx).store id ↔ id ∈ ids := by
  -- rows that the request does not replace have not been locked
  have hkept : ∀ {t : Table} {mine want : t.Id → Prop}, (⟨some tx, s⟩ : Conn Table).Replaced t mine want →
      ∀ id, ¬mine id → (tx.view s.store).get t id = s.store.get t id := fun {_ _ _} h id hid =>
    Conn.view_get_of_not_owns (c := ⟨some tx, s⟩) hwf fun ho => hid (h.owned id ho).1
  -- of those that it replaces and has locked, what it wants is left
  have hdone : ∀ {t : Table} {mine want : t.Id → Prop}, (⟨some tx, s⟩ : Conn Table).Replaced t mine want →
      ∀ id, mine id → (((tx.view s.store).get t id).isSome → (⟨some tx, s⟩ : Conn Table).Owns ⟨t, id⟩) →
      (((tx.view s.store).get t id).isSome ↔ want id) := fun {_ _ _} h id hid howns =>
    ⟨fun hview => (h.owned id (howns hview)).2 hview, fun hwant => (h.held id ⟨hid, hwant⟩).2⟩
  cases set with
  | permissionsOf roleId =>
    cases a with
    | assignPermissions actorUserId id req =>
      obtain ⟨hreplaced, _, hcleared⟩ := howes
      by_cases hid : id = roleId
      · subst hid
        simp only [Assignment.requested, if_true]
        exact fun i => hdone hreplaced (id, i) rfl (hcross.owns_permission hwf hcleared i)
      · simp only [Assignment.requested, if_neg hid]
        intro i
        have hsame := hkept hreplaced (roleId, i) fun h => hid h.symm
        show ((tx.view s.store).get .rolePermissions (roleId, i)).isSome ↔ _
        rw [hsame]
        rfl
    | assignRoles _ _ _ _ | assignRolesMany _ _ _ =>
      intro i
      have hsame := hkept howes.1 (roleId, i) id
      show ((tx.view s.store).get .rolePermissions (roleId, i)).isSome ↔ _
      rw [hsame]
      rfl
  | rolesOf userId =>
    have hsame : ∀ {mine want : Nat × Nat → Prop},
        (⟨some tx, s⟩ : Conn Table).Replaced .userRoles mine want → ∀ i : Nat, ¬mine (userId, i) →
        ((AssignedSet.rolesOf userId).Stored (s.commit p tx).store i ↔
          (AssignedSet.rolesOf userId).Stored s.store i) := by
      intro mine want h i hi
      show ((tx.view s.store).get .userRoles (userId, i)).isSome ↔ _
      rw [hkept h (userId, i) hi]
      rfl
    cases a with
    | assignPermissions _ _ _ => exact fun i => hsame howes.2.1 i id
    | assignRoles actor id req canGrantSuperAdmin =>
      obtain ⟨_, hreplaced, hcleared⟩ := howes
      by_cases hid : id = userId
      · subst hid
        simp only [Assignment.requested, if_true]
        exact fun i => hdone hreplaced (id, i) rfl (hcross.owns_role hwf hcleared i)
      · simp only [Assignment.requested, if_neg hid]
        exact fun i => hsame hreplaced i fun h => hid h.symm
    | assignRolesMany actor req canGrantSuperAdmin =>
      obtain ⟨_, hreplaced, hcleared⟩ := howes
      by_cases hid : userId ∈ req.userIds
      · simp only [Assignment.requested, if_pos hid]
        exact fun i => hdone hreplaced (userId, i) hid (hcross.owns_role hwf (hcleared _ hid) i)
      · simp only [Assignment.requested, if_neg hid]
        exact fun i => hsame hreplaced i hid

/-- The stored set is the one that was stored at first. -/
def AssignedSet.Initial (set : AssignedSet) (s₀ s : Server Table) : Prop :=
  ∀ id, set.Stored s.store id ↔ set.Stored s₀.store id

/-- Steps among which no request for the set is committed. -/
def AssignedSet.Unasked (set : AssignedSet) (cond : Nat → Conn Table → Prop) :
    ReadCommitted.Config Table ApiError Unit Req → ReadCommitted.Config Table ApiError Unit Req → Prop :=
  Relation.ReflTransGen fun C C' => Step (assigning request) cond C C' ∧
    ∀ r, C.Commits C' r → (request r).requested set = none

/-- The stored set is the one that a request has asked for, committed on the way to `C`, after which no
other request for the set has been committed. -/
def AssignedSet.AskedFor (set : AssignedSet) (cond : Nat → Conn Table → Prop) (s₀ : Server Table)
    (C : ReadCommitted.Config Table ApiError Unit Req) : Prop :=
  ∃ C₁ C₂ r ids, ReachableIf (assigning request) cond s₀ C₁ ∧ C₁.Commits C₂ r ∧
    Step (assigning request) cond C₁ C₂ ∧ (request r).requested set = some ids ∧
    set.Unasked request cond C₂ C ∧ ∀ id, set.Stored C.server.store id ↔ id ∈ ids

/-- **Replacements are atomic**, where none is crossed by another: in every run of replacing requests in
which, between the snapshot of the `DELETE` of a replacement and its commit, nobody else commits a row
of the set that it replaces, a stored set is at every moment exactly what the latest committed request
for it has asked for; it is the initial one if no request for it has been committed. -/
theorem assignments_atomic {s₀ : Server Table} (h₀ : s₀.Wf)
    {C : ReadCommitted.Config Table ApiError Unit Req}
    (hC : ReachableIf (assigning request) (fun _ c => Uncrossed c) s₀ C) (set : AssignedSet) :
    (set.Unasked request (fun _ c => Uncrossed c) (Config.idle s₀) C ∧ set.Initial s₀ C.server) ∨
      set.AskedFor request (fun _ c => Uncrossed c) s₀ C := by
  induction hC with
  | refl => exact .inl ⟨.refl, fun _ => Iff.rfl⟩
  | @tail C C' hreach hstep ih =>
    -- a step that commits no request for the set leaves it as it was
    have hsame : (∀ r, C.Commits C' r → (request r).requested set = none) →
        (∀ id, set.Stored C'.server.store id ↔ set.Stored C.server.store id) →
        (set.Unasked request (fun _ c => Uncrossed c) (Config.idle s₀) C' ∧
            set.Initial s₀ C'.server) ∨
          set.AskedFor request (fun _ c => Uncrossed c) s₀ C' := by
      intro hunasked hsame
      rcases ih with ⟨hall, hinit⟩ | ⟨C₁, C₂, r, ids, hC₁, hcommits, hs, hids, hall, hmem⟩
      · exact .inl ⟨hall.tail ⟨hstep, hunasked⟩, fun id => (hsame id).trans (hinit id)⟩
      · exact .inr ⟨C₁, C₂, r, ids, hC₁, hcommits, hs, hids, hall.tail ⟨hstep, hunasked⟩,
          fun id => (hsame id).trans (hmem id)⟩
    by_cases hasked : ∃ r ids, C.Commits C' r ∧ (request r).requested set = some ids
    · -- the latest request for the set is this one
      obtain ⟨r, ids, hcommits, hids⟩ := hasked
      obtain ⟨p, tx, hserver, ⟨⟨hwf, _⟩, _⟩, howes, hcross⟩ := Contract.owes_of_commits
        (assignments_kept request h₀) (ReachableIf.reachable hreach) hstep hcommits
      have hmem := AssignedSet.stored_commit (p := p) hwf howes hcross set
      rw [hids, ← hserver] at hmem
      exact .inr ⟨C, C', r, ids, hreach, hcommits, hstep, hids, .refl, hmem⟩
    · have hunasked : ∀ r, C.Commits C' r → (request r).requested set = none := by
        intro r hr
        cases hids : (request r).requested set with
        | none => rfl
        | some ids => exact absurd ⟨r, ids, hr, hids⟩ hasked
      refine hsame hunasked fun id => ?_
      rcases hstep.commits_of_request with ⟨hstore, _⟩ | ⟨r, hcommits⟩
      · rw [hstore]
      · obtain ⟨p, tx, hserver, ⟨⟨hwf, _⟩, _⟩, howes, hcross⟩ := Contract.owes_of_commits
          (assignments_kept request h₀) (ReachableIf.reachable hreach) hstep hcommits
        have hkept := AssignedSet.stored_commit (p := p) hwf howes hcross set
        rw [hunasked r hcommits, ← hserver] at hkept
        exact hkept id

end Runs

/-! ### Two administrators

The same two requests, one after the other and one during the other.
-/

/-- `root` gives the role `reporter` one permission or the other. -/
def onePermission (first : Bool) : Assignment :=
  .assignPermissions (some 10) 4 ⟨[if first then 1 else 2]⟩

/-- The second request follows the first. -/
def oneAfterTheOther : Stage Table ApiError Unit Bool :=
  Stage.afterIf (fun _ c => Uncrossed c) (assigning onePermission) Sample.server
    [.start true, .run 0 100, .start false, .run 1 100]

theorem oneAfterTheOther_stored :
    (AssignedSet.permissionsOf 4).Stored oneAfterTheOther.server.store 2 := by
  show (oneAfterTheOther.server.store.get .rolePermissions ((4, 2) : Nat × Nat)).isSome = true
  decide +kernel

theorem assignments_atomic_sample :
    (AssignedSet.permissionsOf 4).Stored oneAfterTheOther.config.server.store 2 ∧
      (((AssignedSet.permissionsOf 4).Unasked onePermission (fun _ c => Uncrossed c)
            (Config.idle Sample.server) oneAfterTheOther.config ∧
          (AssignedSet.permissionsOf 4).Initial Sample.server oneAfterTheOther.config.server) ∨
        (AssignedSet.permissionsOf 4).AskedFor onePermission (fun _ c => Uncrossed c)
          Sample.server oneAfterTheOther.config) := by
  have hreach : ReachableIf (assigning onePermission) (fun _ c => Uncrossed c) Sample.server
      oneAfterTheOther.config := Stage.reachable_afterIf _ _ _ _
  refine ⟨?_, assignments_atomic onePermission Sample.server_wf hreach _⟩
  rw [Stage.server_config]
  exact oneAfterTheOther_stored

/-- The second request has selected what it will delete, and goes on when the first one is done. -/
def oneDuringTheOther : Stage Table ApiError Unit Bool :=
  Stage.after (assigning onePermission) Sample.server
    [.start true, .start false, .run 1 6, .run 0 100, .run 1 100]

theorem oneDuringTheOther_stored :
    (AssignedSet.permissionsOf 4).Stored oneDuringTheOther.server.store 1 ∧
      (AssignedSet.permissionsOf 4).Stored oneDuringTheOther.server.store 2 := by
  show (oneDuringTheOther.server.store.get .rolePermissions ((4, 1) : Nat × Nat)).isSome = true ∧
    (oneDuringTheOther.server.store.get .rolePermissions ((4, 2) : Nat × Nat)).isSome = true
  decide +kernel

/-- Both permissions are stored, and nobody has asked for both. -/
theorem assignments_mixed :
    ∃ C : ReadCommitted.Config Table ApiError Unit Bool,
      Reachable (assigning onePermission) Sample.server C ∧
      ¬(((AssignedSet.permissionsOf 4).Unasked onePermission (fun _ _ => True)
            (Config.idle Sample.server) C ∧
          (AssignedSet.permissionsOf 4).Initial Sample.server C.server) ∨
        (AssignedSet.permissionsOf 4).AskedFor onePermission (fun _ _ => True) Sample.server C) := by
  have hreach : Reachable (assigning onePermission) Sample.server oneDuringTheOther.config :=
    Stage.reachable_after _ _ _
  refine ⟨_, hreach, ?_⟩
  unfold AssignedSet.Initial AssignedSet.AskedFor
  rw [Stage.server_config]
  obtain ⟨hfirst, hsecond⟩ := oneDuringTheOther_stored
  rintro (⟨_, hinit⟩ | ⟨_, _, first, ids, _, _, _, hids, _, hmem⟩)
  · have hstored := (hinit 1).1 hfirst
    have hnone : Sample.server.store.get .rolePermissions ((4, 1) : Nat × Nat) = none := by decide
    have hsome : (Sample.server.store.get .rolePermissions ((4, 1) : Nat × Nat)).isSome = true :=
      hstored
    rw [hnone] at hsome
    cases hsome
  · have hone : 1 ∈ ids := (hmem 1).1 hfirst
    have htwo : 2 ∈ ids := (hmem 2).1 hsecond
    cases first
    · have heq : ids = [2] := (Option.some.inj hids).symm
      subst heq
      revert hone
      decide
    · have heq : ids = [1] := (Option.some.inj hids).symm
      subst heq
      revert htwo
      decide

end ArcAdmin
