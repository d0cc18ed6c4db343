import ArcAdmin.Proofs.Footprints
import ArcAdmin.Sample

/-!
# The last super administrator

Any number of concurrent changes to accounts and roles leave at least one active holder of the
role `super_admin`, if there was one.

A transaction either takes the role from nobody (`Safe`, left), or it has locked the role's row and
sees another holder (`Safe`, right). The lock is what makes the second case sound: whoever else
would take the role away has to wait for it, so the holder that the guard has counted stays one.

* **`protectLastSuperAdmin_guards`** — after the guard another holder remains, and is protected;
* **`adminRequests_keep`** — every program of the eight operations keeps the contract;
* **`superAdmin_remains`** — the main theorem.
-/

namespace ArcAdmin

open ReadCommitted

/-! ## The operations

All operations that may take the role from somebody: by deleting or disabling the account, by
replacing its roles, or by changing the role itself.
-/

/-- The operations that change accounts, roles and their assignment, by any actor and with any
flags. -/
inductive AdminRequest where
  | updateUser (id : Nat) (actor : Option ActorContext) (req : UpdateUserRequest)
      (canGrantSuperAdmin canAssignDepartment : Bool)
  | deleteUser (id : Nat) (actor : Option ActorContext)
  | deleteUsers (actor : Option ActorContext) (req : BatchUserIdsRequest)
  | assignRoles (actor : Option ActorContext) (userId : Nat) (req : AssignRolesRequest)
      (canGrantSuperAdmin : Bool)
  | assignRolesMany (actor : Option ActorContext) (req : BatchAssignRolesRequest)
      (canGrantSuperAdmin : Bool)
  | updateRole (actorUserId : Option Nat) (actorDataScope : DataScope) (id : Nat)
      (req : UpdateRoleRequest)
  | deleteRole (actorUserId : Option Nat) (id : Nat)
  | assignPermissions (actorUserId : Option Nat) (id : Nat) (req : UpdateRolePermissionsRequest)

def serveAdmin (env : External) : AdminRequest → Db Unit
  | .updateUser id actor req canGrantSuperAdmin canAssignDepartment => do
    let _ ← Services.Users.update env id actor req canGrantSuperAdmin canAssignDepartment
  | .deleteUser id actor => Services.Users.delete id actor
  | .deleteUsers actor req => Services.Users.deleteMany actor req
  | .assignRoles actor userId req canGrantSuperAdmin =>
    Services.Users.assignRoles actor userId req canGrantSuperAdmin
  | .assignRolesMany actor req canGrantSuperAdmin =>
    Services.Users.assignRolesMany actor req canGrantSuperAdmin
  | .updateRole actorUserId actorDataScope id req => do
    let _ ← Services.Roles.update actorUserId actorDataScope id req
  | .deleteRole actorUserId id => Services.Roles.delete actorUserId id
  | .assignPermissions actorUserId id req => Services.Roles.assignPermissions actorUserId id req

/-! ## Holders of the role

What is to remain, and the index that makes the role unique.
-/

/-- The row of a live user with status `active`. -/
def IsActiveRow (row : Option UserRow) : Prop :=
  ∃ u, row = some u ∧ u.deletedAt = none ∧ u.status = "active"

/-- The row of the role `super_admin`. -/
def IsSuperAdminRow (row : Option RoleRow) : Prop := ∃ r, row = some r ∧ r.code = "super_admin"

/-- The user is active and holds the role. -/
def ActiveHolder (s : Store Table) (roleId userId : Nat) : Prop :=
  IsActiveRow (s.get .users userId) ∧ (s.get .userRoles (userId, roleId)).isSome

/-- **At least one live user with status `active` holds the role `super_admin`.** -/
def HasSuperAdmin (s : Store Table) : Prop :=
  ∃ roleId userId : Nat, IsSuperAdminRow (s.get .roles roleId) ∧ ActiveHolder s roleId userId

/-- The unique index on `roles (code)`, for the code `super_admin`. -/
def SuperAdminUnique (s : Store Table) : Prop :=
  ∀ id id' : Nat, IsSuperAdminRow (s.get .roles id) → IsSuperAdminRow (s.get .roles id') → id = id'

theorem isActive_iff {s : Snap} {id : Nat} :
    Repositories.Users.isActive s id = true ↔ IsActiveRow (s.store.get .users id) := by
  unfold Repositories.Users.isActive IsActiveRow
  cases h : s.store.get .users id with
  | none =>
    constructor
    · intro hn
      cases hn
    · rintro ⟨u, hu, _⟩
      cases hu
  | some u =>
    constructor
    · intro hu
      exact ⟨u, rfl, by simpa using hu⟩
    · rintro ⟨u', hu', hlive⟩
      cases hu'
      simpa using hlive

/-- `activeHolders` lists the active holders. -/
theorem mem_activeHolders {s : Snap} {roleId userId : Nat} :
    userId ∈ Repositories.Users.activeHolders s roleId ↔ ActiveHolder s.store roleId userId := by
  unfold Repositories.Users.activeHolders ActiveHolder
  rw [List.mem_dedup, List.mem_map]
  constructor
  · rintro ⟨⟨⟨u, r⟩, row⟩, he, rfl⟩
    obtain ⟨hrow, hsat⟩ := List.mem_filter.1 he
    obtain ⟨hr, hactive⟩ := Bool.and_eq_true_iff.1 hsat
    have hrole : r = roleId := by simpa using hr
    subst hrole
    exact ⟨isActive_iff.1 hactive, by rw [Store.mem_rows.1 hrow]; rfl⟩
  · rintro ⟨hactive, hrole⟩
    obtain ⟨row, hrow⟩ := Option.isSome_iff_exists.1 hrole
    refine ⟨((userId, roleId), row), List.mem_filter.2 ⟨Store.mem_rows.2 hrow, ?_⟩, rfl⟩
    simpa using isActive_iff.2 hactive

/-! ## The contract

A commit may take the role from somebody only if the transaction has locked the role and leaves
another holder. Since the lock is exclusive, no two transactions count on each other's holder.
-/

section Contract

variable (R : Nat)

/-- The row of a role stays or becomes no other role's; `R` stays what it is. -/
def RoleKept (id : Nat) (old new : Option RoleRow) : Prop :=
  (IsSuperAdminRow new → IsSuperAdminRow old) ∧ (id = R → IsSuperAdminRow old → IsSuperAdminRow new)

/-- An active user stays active. -/
def UserKept (old new : Option UserRow) : Prop := IsActiveRow old → IsActiveRow new

/-- The holders of `R` outside `X` keep it. -/
def HoldersKept (X : Nat → Prop) (id : Nat × Nat) (old new : Option LinkRow) : Prop :=
  id.2 = R → ¬X id.1 → old.isSome → new.isSome

/-- The transaction has locked the row of `R` exclusively. -/
def Guarded (c : Conn Table) : Prop :=
  ∃ tx, c.tx = some tx ∧ (⟨.roles, R⟩, .update) ∈ tx.locks

/-- **The transaction leaves somebody with `R`**, counting the users of `X` as holders: it takes
the role from nobody, or it has locked the role and sees a holder. -/
def Safe (X : Nat → Prop) (c : Conn Table) : Prop :=
  (c.RowRel .users (fun _ => UserKept) ∧ c.RowRel .userRoles (HoldersKept R X)) ∨
    (Guarded R c ∧ ∃ v, IsActiveRow (c.view.get .users v) ∧
      (X v ∨ (c.view.get .userRoles (v, R)).isSome))

/-- The transaction has locked the role and sees a holder other than `u`. -/
def OtherHolder (u : Nat) (c : Conn Table) : Prop :=
  Guarded R c ∧ ∃ v, v ≠ u ∧ ActiveHolder c.view R v

/-- **The contract**: there is one role `super_admin`, and somebody active holds it. -/
def rosterContract : Contract Table where
  base _ c := c.Wf
  inv s := IsSuperAdminRow (s.store.get .roles R) ∧
    (∀ id, IsSuperAdminRow (s.store.get .roles id) → id = R) ∧ ∃ v, ActiveHolder s.store R v
  guar _ c := c.RowRel .roles (RoleKept R) ∧ Safe R (fun _ => False) c

/-- The tables that do not matter here. -/
def offRoster : List Table :=
  [.organizations, .departments, .permissions, .rolePermissions, .authSessions,
    .authLoginAttempts, .userMfaSettings, .userMfaRecoveryCodes, .userPasskeys,
    .authMfaChallenges, .authStepUpTokens, .authModuleUnlocks, .auditLogs]

variable {R} {p : Nat} {X : Nat → Prop} {u : Nat}

theorem rosterContract_wf : (rosterContract R).WellFormed := fun _ _ h => h

theorem RoleKept.refl (id : Nat) (row : Option RoleRow) : RoleKept R id row row :=
  ⟨fun h => h, fun _ h => h⟩

theorem HoldersKept.refl (id : Nat × Nat) (row : Option LinkRow) : HoldersKept R X id row row :=
  fun _ _ h => h

/-- A transaction that changes no account and no assignment is safe. -/
theorem Safe.of_view_eq {c : Conn Table}
    (hu : ∀ id, c.view.get .users id = c.server.store.get .users id)
    (hr : ∀ id, c.view.get .userRoles id = c.server.store.get .userRoles id) : Safe R X c :=
  .inl ⟨RowRel.of_view_eq (fun _ _ h => h) hu, RowRel.of_view_eq HoldersKept.refl hr⟩

/-- **What the guarantee is good for**: the commit keeps the invariant. -/
theorem inv_of_guar {c : Conn Table} (hinv : (rosterContract R).inv c.server)
    (hguar : (rosterContract R).guar p c) :
    ∀ tx, c.tx = some tx → (rosterContract R).inv (c.server.commit p tx) := by
  obtain ⟨hrole, hone, v, hv⟩ := hinv
  obtain ⟨hroles, hsafe⟩ := hguar
  intro tx htx
  have hview : (c.server.commit p tx).store = c.view := by
    obtain ⟨otx, s⟩ := c
    cases htx
    rfl
  refine ⟨?_, fun id hid => ?_, ?_⟩
  · rw [hview]
    exact (hroles R).2 rfl hrole
  · rw [hview] at hid
    exact hone id ((hroles id).1 hid)
  · rw [hview]
    rcases hsafe with ⟨husers, hholders⟩ | ⟨_, w, hw, hfalse | hheld⟩
    · exact ⟨v, husers v hv.1, hholders (v, R) rfl (fun h => h) hv.2⟩
    · cases hfalse
    · exact ⟨w, hw, hheld⟩

/-! ## Stability

A holder that a transaction with the lock has counted stays a holder, because whoever would take
the role away waits for the lock.
-/

/-- **A row of a protected holder survives a commit of the others.** -/
theorem row_survives {c c' : Conn Table} (hg : Guarded R c) (hwf : c.Wf)
    (hi : Interferes (rosterContract R).Commits (fun _ _ => True) p c c') :
    (∀ v, IsActiveRow (c.view.get .users v) → IsActiveRow (c'.view.get .users v)) ∧
      ∀ v, (c.view.get .userRoles (v, R)).isSome → (c'.view.get .userRoles (v, R)).isSome := by
  -- what the others did to the committed rows
  have hstore : (∀ v, IsActiveRow (c.server.store.get .users v) →
        IsActiveRow (c'.server.store.get .users v)) ∧
      ∀ v, (c.server.store.get .userRoles (v, R)).isSome →
        (c'.server.store.get .userRoles (v, R)).isSome := by
    cases hi with
    | tick d => exact ⟨fun _ h => h, fun _ h => h⟩
    | draw d => exact ⟨fun _ h => h, fun _ h => h⟩
    | commit q tx hq hcompat hIq hcond =>
      rcases hIq.2.2 with ⟨husers, hholders⟩ | ⟨⟨tx', htx', hlock'⟩, _⟩
      · exact ⟨fun v hv => husers v hv, fun v hv => hholders (v, R) rfl (fun h => h) hv⟩
      · -- the other transaction cannot hold the lock on the role as well
        cases htx'
        obtain ⟨tx₀, htx₀, hlock⟩ := hg
        have hfree := hcompat tx₀ htx₀ _ hlock _ hlock' rfl
        rw [LockMode.update_conflicts] at hfree
        cases hfree
  have hview := fun t id => hwf.interferes_view rosterContract_wf.commits hi t id
  refine ⟨fun v hv => ?_, fun v hv => ?_⟩
  · rcases hview .users v with ⟨hsame, _⟩ | ⟨hold, hnew⟩
    · rw [hsame]
      exact hv
    · rw [hnew]
      rw [hold] at hv
      exact hstore.1 v hv
  · rcases hview .userRoles (v, R) with ⟨hsame, _⟩ | ⟨hold, hnew⟩
    · rw [hsame]
      exact hv
    · rw [hnew]
      rw [hold] at hv
      exact hstore.2 v hv

theorem Guarded.interferes {c c' : Conn Table} {I : Nat → Conn Table → Prop}
    {cond : Nat → Conn Table → Prop} (hg : Guarded R c) (hi : Interferes I cond p c c') :
    Guarded R c' := by
  obtain ⟨tx, htx, hlock⟩ := hg
  exact ⟨tx, by rw [hi.tx_eq, htx], hlock⟩

theorem stable_roles : ((rosterContract R).judge p).Stable fun c => c.RowRel .roles (RoleKept R) :=
  Contract.stable_rowRel rosterContract_wf RoleKept.refl

theorem stable_safe : ((rosterContract R).judge p).Stable (Safe R X) := by
  rintro c c' hr (⟨husers, hholders⟩ | ⟨hg, v, hv, hheld⟩)
  · exact .inl ⟨Contract.stable_rowRel rosterContract_wf (fun _ _ h => h) c c' hr husers,
      Contract.stable_rowRel rosterContract_wf HoldersKept.refl c c' hr hholders⟩
  · obtain ⟨hactive, hholder⟩ := row_survives hg hr.1 hr.2.2.2.2
    exact .inr ⟨hg.interferes hr.2.2.2.2, v, hactive v hv, hheld.imp id (hholder v)⟩

theorem stable_other : ((rosterContract R).judge p).Stable (OtherHolder R u) := by
  rintro c c' hr ⟨hg, v, hne, hv, hheld⟩
  obtain ⟨hactive, hholder⟩ := row_survives hg hr.1 hr.2.2.2.2
  exact ⟨hg.interferes hr.2.2.2.2, v, hne, hactive v hv, hholder v hheld⟩

end Contract

/-! ## Changes inside a transaction

Between the guard and the commit the transaction changes one account, or several one after the
other.
-/

/-- Changes that take `R` from nobody outside `X`. -/
def rosterChange (R : Nat) (X : Nat → Prop) : Change Table
  | .users, _, old, new, _ => UserKept old new
  | .userRoles, id, old, new, _ => HoldersKept R X id old new
  | .roles, id, old, new, _ => RoleKept R id old new
  | _, _, _, _, _ => True

/-- Changes of the account `u` and its assignments. -/
def onlyUser (u : Nat) : Change Table
  | .users, id, _, _, _ => (id : Nat) = u
  | .userRoles, id, _, _, _ => (id : Nat × Nat).1 = u
  | .roles, _, _, _, _ => False
  | _, _, _, _, _ => True

/-- What a transaction keeps up while it changes the roster. -/
def Roster (R : Nat) (X : Nat → Prop) (c : Conn Table) : Prop :=
  c.tx.isSome ∧ c.RowRel .roles (RoleKept R) ∧ Safe R X c

/-- What a transaction has after the guard for the account `u`. -/
def GuardedFor (R u : Nat) (c : Conn Table) : Prop :=
  c.RowRel .roles (RoleKept R) ∧ OtherHolder R u c

section Changes

variable {R : Nat} {p : Nat} {X : Nat → Prop} {u : Nat} {c c' : Conn Table}

theorem RoleKept.trans {id : Nat} {old v v' : Option RoleRow} (h' : RoleKept R id v v')
    (h : RoleKept R id old v) : RoleKept R id old v' :=
  ⟨fun hn => h.1 (h'.1 hn), fun hid ho => h'.2 hid (h.2 hid ho)⟩

theorem Roster.noted (h : Roster R X c) (e : Event) : Roster R X (c.noted e) := by
  obtain ⟨htx, hroles, hsafe⟩ := h
  refine ⟨(Conn.isSome_noted c e).trans htx, RowRel.noted hroles e, ?_⟩
  rcases hsafe with ⟨husers, hholders⟩ | ⟨hg, v, hv, hheld⟩
  · exact .inl ⟨RowRel.noted husers e, RowRel.noted hholders e⟩
  · refine .inr ⟨Conn.locked_noted.2 hg, v, ?_⟩
    rw [Conn.view_noted]
    exact ⟨hv, hheld⟩

theorem Roster.frameClosed : FrameClosed (rosterChange R X) (Roster R X) := by
  rintro c c' hf ⟨htx, hroles, hsafe⟩
  refine ⟨hf.isSome ▸ htx, RowRel.framed (fun _ _ _ _ _ h _ => h.trans) hroles hf, ?_⟩
  rcases hsafe with ⟨husers, hholders⟩ | ⟨hg, v, hv, hheld⟩
  · exact .inl ⟨RowRel.framed (fun _ _ _ _ _ h' _ h ho => h' (h ho)) husers hf,
      RowRel.framed (fun _ _ _ _ _ h' _ h hR hX ho => h' hR hX (h hR hX ho)) hholders hf⟩
  · refine .inr ⟨hf.locked hg, v, ?_, ?_⟩
    · rcases hf.row .users v with hsame | ⟨_, hkept, _⟩
      · rw [hsame]
        exact hv
      · exact hkept hv
    · by_cases hX : X v
      · exact .inl hX
      · have hold := hheld.resolve_left hX
        refine .inr ?_
        rcases hf.row .userRoles (v, R) with hsame | ⟨_, hkept, _⟩
        · rw [hsame]
          exact hold
        · exact hkept rfl hX hold

theorem GuardedFor.frameClosed : FrameClosed (onlyUser u) (GuardedFor R u) := by
  rintro c c' hf ⟨hroles, hg, v, hne, hv, hheld⟩
  refine ⟨RowRel.framed (fun _ _ _ _ _ h _ _ => h.elim) hroles hf, hf.locked hg, v, hne, ?_, ?_⟩
  · rcases hf.row .users v with hsame | ⟨_, hu, _⟩
    · rw [hsame]
      exact hv
    · exact absurd hu hne
  · rcases hf.row .userRoles (v, R) with hsame | ⟨_, hu, _⟩
    · rw [hsame]
      exact hheld
    · exact absurd hu hne

theorem stable_roster : ((rosterContract R).judge p).Stable (Roster R X) :=
  (Contract.stable_tx fun otx => otx.isSome).and (stable_roles.and stable_safe)

theorem stable_guardedFor : ((rosterContract R).judge p).Stable (GuardedFor R u) :=
  stable_roles.and stable_other

theorem GuardedFor.roster (h : GuardedFor R u c) : Roster R X c := by
  obtain ⟨hroles, hg, v, _, hv, hheld⟩ := h
  obtain ⟨tx, htx, _⟩ := id hg
  exact ⟨by rw [htx]; rfl, hroles, .inr ⟨hg, v, hv, .inr hheld⟩⟩

/-- A transaction starts with nothing taken from anybody. -/
theorem Roster.of_begun (h : c.Begun) : Roster R X c := by
  have hview : ∀ t id, c.view.get t id = c.server.store.get t id := fun t id => by rw [h.view_eq]
  obtain ⟨start, htx⟩ := h
  exact ⟨by rw [htx]; rfl, RowRel.of_view_eq RoleKept.refl (hview .roles),
    Safe.of_view_eq (hview .users) (hview .userRoles)⟩

/-- A transaction may commit while it keeps the roster up. -/
theorem Roster.guar (hb : ((rosterContract R).judge p).base c)
    (h : Roster R (fun _ => False) c) : ((rosterContract R).judge p).guar c :=
  ⟨h.2, inv_of_guar hb.2 h.2⟩

end Changes

/-! ## The guard

`super_admin_guard_state` locks the role first and counts afterwards, in a new snapshot.
-/

section Guard

variable {R : Nat} {p : Nat} {u : Nat}

/-- **After the guard another active holder remains**, and no other transaction can take the role
from it. -/
theorem protectLastSuperAdmin_guards :
    Triple ((rosterContract R).judge p) p (Roster R fun _ => False)
      (Services.Users.protectLastSuperAdmin u) fun _ => GuardedFor R u := by
  have hstG : ((rosterContract R).judge p).Stable (Guarded R) := fun _ _ hr hg =>
    hg.interferes hr.2.2.2.2
  -- the row lock of the role
  refine Triple.bind (R := fun state c => GuardedFor R u c ∨ (state.1 && state.2 ≤ 1) = true) ?_
    fun state => ?_
  · refine Triple.bind (R := fun locked c => (∃ r, locked = [(R, r)]) ∧
      Roster R (fun _ => False) c ∧ Guarded R c) ?_ fun locked => ?_
    · refine Triple.selectRowForUpdate R (σ := fun _ => True) stable_roster
        (fun rows => (Judge.Stable.const _).and (stable_roster.and hstG)) (fun _ _ _ => trivial)
        fun s c _ hb hc => ?_
      obtain ⟨hsome, hroles, hsafe⟩ := hc
      obtain ⟨tx, htx⟩ := Option.isSome_iff_exists.1 hsome
      obtain ⟨r, hr, hcode⟩ := (hroles R).2 rfl hb.2.1
      refine ⟨tx, r, htx, hr, by simpa using hcode, fun i r' hr' hcode' => ?_, ⟨r, rfl⟩, ?_, ?_⟩
      · exact hb.2.2.1 i ((hroles i).1 ⟨r', hr', by simpa using hcode'⟩)
      · obtain ⟨otx, srv⟩ := c
        cases htx
        exact Roster.frameClosed _ _ (Framed.acquire tx srv _ _) ⟨hsome, hroles, hsafe⟩
      · exact ⟨_, rfl, List.mem_cons_self⟩
    · refine Triple.assuming fun hlocked => ?_
      obtain ⟨r, rfl⟩ := hlocked
      -- the count, in a snapshot of what the transaction sees under the lock
      refine Triple.bind (R := fun s c => GuardedFor R u c ∨
          ((Repositories.Users.activeHolders s R).contains u &&
            (Repositories.Users.activeHolders s R).length ≤ 1) = true) ?_ fun s =>
        Triple.ret (stable_guardedFor.or (Judge.Stable.const _)) fun c _ hc => hc
      refine Triple.query (stable_roster.and hstG)
        (fun s => stable_guardedFor.or (Judge.Stable.const _)) fun c hb hc => ?_
      obtain ⟨⟨_, hroles, hsafe⟩, hg⟩ := hc
      by_cases hlast : ((Repositories.Users.activeHolders c.snapshot R).contains u &&
          (Repositories.Users.activeHolders c.snapshot R).length ≤ 1) = true
      · exact .inr hlast
      refine .inl ⟨hroles, hg, ?_⟩
      -- somebody active holds the role in the snapshot
      have hsome : ∃ v, ActiveHolder c.view R v := by
        rcases hsafe with ⟨husers, hholders⟩ | ⟨_, v, hv, hfalse | hheld⟩
        · obtain ⟨v, hv⟩ := hb.2.2.2
          exact ⟨v, husers v hv.1, hholders (v, R) rfl (fun h => h) hv.2⟩
        · cases hfalse
        · exact ⟨v, hv, hheld⟩
      by_cases hu : u ∈ Repositories.Users.activeHolders c.snapshot R
      · -- the account is one of at least two holders
        have hlen : 1 < (Repositories.Users.activeHolders c.snapshot R).length := by
          simpa [hu] using hlast
        obtain ⟨v, hv, hne⟩ := exists_mem_ne_of_nodup (List.nodup_dedup _) hlen u
        exact ⟨v, hne, mem_activeHolders.1 hv⟩
      · obtain ⟨v, hv⟩ := hsome
        refine ⟨v, ?_, hv⟩
        rintro rfl
        exact hu (mem_activeHolders.2 hv)
  · by_cases hlast : (state.1 && state.2 ≤ 1) = true
    · simp only [hlast, Prog.reject, if_true]
      exact Triple.fail
    · refine (Triple.reject (stable_guardedFor.or (Judge.Stable.const _))).post fun _ c hc => ?_
      exact hc.2.resolve_right hlast

end Guard

/-! ## Replacing the roles of an account

Between the `DELETE` and the `INSERT`s the account may be without the role, although it is to have
it again. It is counted as a holder meanwhile.
-/

section AssignRoles

variable {R : Nat} {p : Nat} {u : Nat}

/-- The transaction has inserted the assignment of `r` to `u`. -/
def Assigned (u r : Nat) (c : Conn Table) : Prop :=
  c.Owns ⟨.userRoles, (u, r)⟩ ∧ (c.view.get .userRoles (u, r)).isSome

theorem stable_assigned {r : Nat} : ((rosterContract R).judge p).Stable (Assigned u r) :=
  Contract.stable_owned rosterContract_wf fun row => row.isSome

theorem clearRoles_onlyUser : ((Repositories.Users.clearRolesStmt u).exec : Db _).All
    (Act.Within (onlyUser u)) :=
  Prog.All.delete (fun _ id _ h =>
    (by simpa [Repositories.Users.clearRolesStmt] using h : id.1 = u)) trivial

/-- **Replacing the roles of one account touches nobody else.** -/
theorem assignRoles_onlyUser (roleIds : List Nat) :
    (Repositories.Users.assignRoles u roleIds).All (Act.Within (onlyUser u)) :=
  Repositories.Users.assignRoles_within_user (fun _ _ _ _ h => h) roleIds

/-- **An account that is given `R` again still holds it in the end.** -/
theorem assignRoles_keeps {roleIds : List Nat} (hR : R ∈ roleIds) :
    Triple ((rosterContract R).judge p) p (Roster R fun _ => False)
      (Repositories.Users.assignRoles u roleIds) fun _ => Roster R fun _ => False := by
  -- what holds once the roles in `done` have been inserted
  let Done (done : List Nat) (c : Conn Table) : Prop :=
    Roster R (· = u) c ∧ ∀ r, r ∈ done → Assigned u r c
  have hst : ∀ done, ((rosterContract R).judge p).Stable (Done done) := fun done =>
    stable_roster.and (Judge.Stable.forall fun r c c' hr hc hmem =>
      stable_assigned c c' hr (hc hmem))
  have hclosed : ∀ done, FrameClosed (tables []) (Done done) := by
    intro done c c' hf ⟨hroster, hdone⟩
    refine ⟨Roster.frameClosed _ _ (hf.mono fun _ _ _ _ _ h => by cases h) hroster, fun r hr => ?_⟩
    refine ⟨hf.owns (hdone r hr).1, ?_⟩
    rw [hf.view_get (frozen_tables (by simp))]
    exact (hdone r hr).2
  refine Triple.queryThen (Q := Done []) ?_ fun s => ?_
  · -- all roles are removed
    have hclear : ((Repositories.Users.clearRolesStmt u).exec : Db _).All
        (Act.Within (rosterChange R (· = u))) :=
      Prog.All.delete (fun _ id _ h _ hX => (hX (by
        simpa [Repositories.Users.clearRolesStmt] using h)).elim) trivial
    refine ((Triple.within stable_roster Roster.frameClosed hclear).pre fun c hc => ?_).post
      fun _ c hc => ⟨hc, fun r hr => by cases hr⟩
    obtain ⟨htx, hroles, ⟨husers, hholders⟩ | ⟨hg, v, hv, hfalse | hheld⟩⟩ := hc
    · exact ⟨htx, hroles, .inl ⟨husers, fun id hid _ => hholders id hid fun h => h⟩⟩
    · cases hfalse
    · exact ⟨htx, hroles, .inr ⟨hg, v, hv, .inr hheld⟩⟩
  · -- and those of the list are inserted
    refine Triple.bind (R := fun _ => Roster R fun _ => False) ?_ fun _ =>
      Triple.ret stable_roster fun _ _ hc => hc
    refine (Triple.forEachDone hst (fun done r _ => ?_) []).post fun _ c hc => ?_
    · refine Triple.bind (R := fun _ => Done (done ++ [r])) ?_ fun _ =>
        Triple.within (hst _) (hclosed _)
          (.bind (references_within _ _ _) fun _ => references_within _ _ _)
      refine Triple.insert (hst done) (fun _ => hst _) fun tx s hb hc hfree => ?_
      have hnone : (tx.view s.store).get .userRoles (u, r) = none := Store.get_of_blocks hfree
      have hf : Framed (rosterChange R (· = u)) ⟨some tx, s⟩
          ⟨some (tx.write .userRoles (u, r) .update (some ⟨s.seq⟩) [.roleAssigned]),
            { s with seq := s.seq + 1 }⟩ :=
        Framed.write tx s .update (fun _ _ _ => rfl)
          (by rw [hnone]; rfl) 1
      refine ⟨Roster.frameClosed _ _ hf hc.1, fun r' hr' => ?_⟩
      by_cases hrr : r' = r
      · subst hrr
        exact ⟨⟨_, rfl, tx.owns_write _ _ _ _ rfl⟩, by simp [Repositories.Users.assignRoleStmt]⟩
      · have hold := hc.2 r' (by simpa [hrr] using hr')
        refine ⟨hf.owns hold.1, ?_⟩
        have hne : (⟨.userRoles, (u, r')⟩ : Key Table) ≠ ⟨.userRoles, (u, r)⟩ := by
          intro h
          cases h
          exact hrr rfl
        have hget : ((tx.view s.store).set .userRoles (u, r) (some ⟨s.seq⟩)).get .userRoles
            (u, r') = (tx.view s.store).get .userRoles (u, r') := Store.get_set_of_key_ne _ _ hne
        rw [Conn.view_some, Tx.view_write]
        exact hget ▸ hold.2
    · obtain ⟨⟨htx, hroles, hsafe⟩, hdone⟩ := hc
      have hassigned := hdone R (by simpa using hR)
      refine ⟨htx, hroles, ?_⟩
      rcases hsafe with ⟨husers, hholders⟩ | ⟨hg, v, hv, hvu | hheld⟩
      · refine .inl ⟨husers, fun id hid _ hold => ?_⟩
        by_cases hX : id.1 = u
        · have hid' : id = (u, R) := Prod.ext hX hid
          subst hid'
          exact hassigned.2
        · exact hholders id hid hX hold
      · exact .inr ⟨hg, v, hv, .inr (hvu ▸ hassigned.2)⟩
      · exact .inr ⟨hg, v, hv, .inr hheld⟩

end AssignRoles

/-! ## The services

The transactions of the operations, as triples.
-/

section Services

variable {R : Nat} {p : Nat} {u : Nat}

/-- Outside its transaction a request owes nothing. -/
theorem skip {α : Type} {m : Db α} (hm : m.All (Act.Within (tables []))) :
    Triple ((rosterContract R).judge p) p (fun _ => True) m fun _ _ => True :=
  Triple.within (fun _ _ _ h => h) (fun _ _ _ h => h) hm

theorem begin_roster : Triple ((rosterContract R).judge p) p (fun _ => True) (beginTx : Db Unit)
    fun _ => Roster R fun _ => False :=
  (Triple.beginTx Contract.private_judge).post fun _ _ => Roster.of_begun

theorem commit_roster : Triple ((rosterContract R).judge p) p (Roster R fun _ => False)
    (commitTx : Db Unit) fun _ _ => True :=
  (Triple.commitTx Contract.private_judge stable_roster fun _ => Roster.guar).post fun _ _ _ => trivial

theorem note_roster (e : Event) : Triple ((rosterContract R).judge p) p (Roster R fun _ => False)
    (noteEvent e : Db Unit) fun _ => Roster R fun _ => False :=
  Triple.noteEvent stable_roster stable_roster fun _ _ hc => hc.noted e

/-- Work beside the roster. -/
theorem beside {α : Type} {m : Db α} (hm : m.All (Act.Within (tables offRoster))) :
    Triple ((rosterContract R).judge p) p (Roster R fun _ => False) m
      fun _ => Roster R fun _ => False := by
  refine Triple.within stable_roster Roster.frameClosed (hm.mono fun a ha => ha.mono ?_)
  intro t id old new evs ht
  cases t <;> trivial

theorem beside_guarded {α : Type} {m : Db α} (hm : m.All (Act.Within (tables offRoster))) :
    Triple ((rosterContract R).judge p) p (GuardedFor R u) m fun _ => GuardedFor R u := by
  refine Triple.within stable_guardedFor GuardedFor.frameClosed (hm.mono fun a ha => ha.mono ?_)
  intro t id old new evs ht
  cases t <;> trivial

/-- Changes of the guarded account. -/
theorem guarded {α : Type} {m : Db α} (hm : m.All (Act.Within (onlyUser u))) :
    Triple ((rosterContract R).judge p) p (GuardedFor R u) m fun _ => GuardedFor R u :=
  Triple.within stable_guardedFor GuardedFor.frameClosed hm

theorem softDelete_onlyUser : (Repositories.Users.softDelete u).All (Act.Within (onlyUser u)) := by
  refine .bind (Prog.All.update (fun _ id r h => ?_) trivial) fun _ =>
    .bind (.whenever (.bind clearRoles_onlyUser fun _ => .ret)) fun _ => .ret
  have hid : id = u ∧ r.deletedAt = none := by
    simpa [Repositories.Users.softDeleteStmt] using h
  exact hid.1

/-- **Deleting one account.** -/
theorem deleteOne_keeps {actorUserId : Option Nat} :
    Triple ((rosterContract R).judge p) p (Roster R fun _ => False)
      (Services.Users.deleteOne u actorUserId) fun _ => Roster R fun _ => False := by
  refine protectLastSuperAdmin_guards.bind fun _ => ?_
  refine (beside_guarded (Repositories.Users.roleIdsByUser_within _)).bind fun _ => ?_
  refine (guarded softDelete_onlyUser).bind fun _ => ?_
  refine (beside_guarded (Prog.All.all_reject _ _)).bind fun _ => ?_
  refine Triple.bind (R := fun _ => Roster R fun _ => False) ?_ fun _ => beside <|
    .bind (Services.Auth.recordSessionRevocation_within (free_tables (by decide)) _ _ _ _)
      fun _ => Repositories.AuditLogs.record_within (free_tables (by decide)) _ _ _ _ _
  exact (beside_guarded (Repositories.AuthSessions.revokeAllForUser_within
    (free_tables (by decide)).edits _)).post fun _ _ h => h.roster

theorem delete_keeps {id : Nat} {actor : Option ActorContext} :
    Triple ((rosterContract R).judge p) p (fun _ => True) (Services.Users.delete id actor)
      fun _ _ => True := by
  refine (skip (Services.Users.ensureActorCanAccess_within _ _)).bind fun _ => ?_
  refine (skip (Prog.All.all_reject _ _)).bind fun _ => ?_
  exact begin_roster.bind fun _ => deleteOne_keeps.bind fun _ => commit_roster

theorem deleteMany_keeps {actor : Option ActorContext} {req : BatchUserIdsRequest} :
    Triple ((rosterContract R).judge p) p (fun _ => True) (Services.Users.deleteMany actor req)
      fun _ _ => True := by
  refine (skip (Prog.All.all_okOr _ _)).bind fun _ => ?_
  refine (skip (Services.Users.validateBatchUserIds_within _ _)).bind fun _ => ?_
  refine (skip (.forEach fun _ => Services.Users.ensureActorCanAccess_within _ _)).bind
    fun _ => ?_
  refine begin_roster.bind fun _ => ?_
  exact (Triple.forEach stable_roster fun _ _ => deleteOne_keeps).bind fun _ => commit_roster

/-- **Replacing the roles of one account**: without `R` the guard has run, with `R` the account
holds it again in the end. -/
theorem replaceRoles_keeps {superAdminRoleId actorUserId : Option Nat}
    {roleIds previousRoleIds : List Nat} (hsa : ∀ id, superAdminRoleId = some id → id = R) :
    Triple ((rosterContract R).judge p) p (Roster R fun _ => False)
      (Services.Users.replaceRoles superAdminRoleId actorUserId u roleIds previousRoleIds)
      fun _ => Roster R fun _ => False := by
  have hrecords : ∀ details, (Repositories.AuditLogs.record actorUserId "user.roles.update" "user"
      (some u) details).All (Act.Within (tables offRoster)) := fun details =>
    Repositories.AuditLogs.record_within (free_tables (by decide)) _ _ _ _ _
  have hassign : Triple ((rosterContract R).judge p) p (Roster R fun _ => False)
      (Prog.whenever (!superAdminRoleId.any roleIds.contains)
          (Services.Users.protectLastSuperAdmin u) >>= fun _ =>
        Repositories.Users.assignRoles u roleIds) fun _ => Roster R fun _ => False := by
    by_cases hin : superAdminRoleId.any roleIds.contains = true
    · obtain ⟨id, hid, hmem⟩ : ∃ id, superAdminRoleId = some id ∧ id ∈ roleIds := by
        cases superAdminRoleId with
        | none => cases hin
        | some id => exact ⟨id, rfl, by simpa using hin⟩
      rw [hsa id hid] at hmem
      simp only [hin, Bool.not_true, Prog.whenever, if_false, Bool.false_eq_true, Prog.ret_bind]
      exact assignRoles_keeps hmem
    · have hout : (!superAdminRoleId.any roleIds.contains) = true := by simpa using hin
      simp only [hout, Prog.whenever, if_true]
      refine protectLastSuperAdmin_guards.bind fun _ => ?_
      exact (guarded (assignRoles_onlyUser roleIds)).post fun _ _ h => h.roster
  unfold Services.Users.replaceRoles
  rw [← bind_assoc]
  refine hassign.bind fun _ => (note_roster _).bind fun _ =>
    beside (.bind (.ifSome fun id => ?_) fun _ => hrecords _)
  exact .whenever (Repositories.AuditLogs.record_within (free_tables (by decide)) _ _ _ _ _)

/-- The role id that an operation looks up is `R`. -/
theorem idByCode_finds : Triple ((rosterContract R).judge p) p (fun _ => True)
    (Repositories.Roles.idByCode "super_admin")
    fun o _ => ∀ id, o = some id → id = R := by
  refine Triple.bind (R := fun s _ => ∀ id, Repositories.Roles.activeByCode s "super_admin" =
    some id → id = R) ?_ fun s => Triple.ret (Judge.Stable.const _) fun c _ hc => hc
  refine Triple.poolQuery (fun _ _ _ h => h) (fun _ => Judge.Stable.const _) fun c hb _ id hid => ?_
  unfold Repositories.Roles.activeByCode at hid
  obtain ⟨e, he, rfl⟩ := Option.map_eq_some_iff.1 hid
  have hmem := List.mem_of_find?_eq_some he
  have hsat := List.find?_some he
  refine hb.2.2.1 e.1 ⟨e.2, Store.mem_rows.1 hmem, ?_⟩
  simpa using (Bool.and_eq_true_iff.1 hsat).1

theorem assignRoles_service_keeps {actor : Option ActorContext} {userId : Nat}
    {req : AssignRolesRequest} {canGrantSuperAdmin : Bool} :
    Triple ((rosterContract R).judge p) p (fun _ => True)
      (Services.Users.assignRoles actor userId req canGrantSuperAdmin) fun _ _ => True := by
  refine (skip (Services.Users.ensureActorCanAccess_within _ _)).bind fun _ => ?_
  refine idByCode_finds.bind fun superAdminRoleId => ?_
  refine (Triple.assuming fun hsa => ?_).pre fun c hc => ⟨hc, trivial⟩
  refine (skip (Services.Users.validateRoleGrantScope_within _ _ _)).bind fun _ => ?_
  refine (skip (Repositories.Users.roleIdsByUser_within _)).bind fun _ => ?_
  exact begin_roster.bind fun _ => (replaceRoles_keeps hsa).bind fun _ => commit_roster

theorem assignRolesMany_keeps {actor : Option ActorContext} {req : BatchAssignRolesRequest}
    {canGrantSuperAdmin : Bool} :
    Triple ((rosterContract R).judge p) p (fun _ => True)
      (Services.Users.assignRolesMany actor req canGrantSuperAdmin) fun _ _ => True := by
  refine (skip (Prog.All.all_okOr _ _)).bind fun _ => ?_
  refine (skip (Services.Users.validateBatchUserIds_within _ _)).bind fun _ => ?_
  refine (skip (Services.Users.validateRoleGrantScope_within _ _ _)).bind fun _ => ?_
  refine (skip (.forEach fun _ => Services.Users.ensureActorCanAccess_within _ _)).bind
    fun _ => ?_
  refine idByCode_finds.bind fun superAdminRoleId => ?_
  refine (Triple.assuming fun hsa => ?_).pre fun c hc => ⟨hc, trivial⟩
  refine begin_roster.bind fun _ => ?_
  refine (Triple.forEach stable_roster fun _ _ => ?_).bind fun _ => commit_roster
  exact (beside (Repositories.Users.roleIdsByUser_within _)).bind fun _ => replaceRoles_keeps hsa

end Services

/-! ## Profiles and roles

The operations that change an account or a role without taking assignments away.
-/

section Update

variable {R : Nat} {p : Nat} {u : Nat}

theorem updatePassword_onlyUser (hash : String) :
    (Repositories.Users.updatePassword u hash).All (Act.Within (onlyUser u)) := by
  refine .bind (Prog.All.update (fun _ id r h => ?_) trivial) fun _ => .ret
  have hid : id = u ∧ r.deletedAt = none := by
    simpa [Repositories.Users.updatePasswordStmt] using h
  exact hid.1

/-- `updateProfile` makes one kind of change. -/
theorem updateProfile_within {φ : Change Table} {displayName : Option String} {emailIsSet : Bool}
    {email status : Option String} {departmentId : Option Nat}
    (h : ∀ s r evs, φ .users u (some r) (some ((Repositories.Users.updateProfileStmt u displayName
      emailIsSet email status departmentId).set s r)) evs) :
    (Repositories.Users.updateProfile u displayName emailIsSet email status departmentId).All
      (Act.Within φ) := by
  refine .bind (Prog.All.update (fun s id r hc => ?_) trivial) fun rows => ?_
  · have hid : id = u ∧ r.deletedAt = none := by
      simpa [Repositories.Users.updateProfileStmt] using hc
    rw [hid.1]
    exact h s r _
  · cases rows.head? with
    | none => exact .ret
    | some row =>
      exact .bind (.whenever (Repositories.Users.referencesDepartment_within _ _)) fun _ => .ret

/-- A new profile without a status, or with the status `active`, leaves an active user active. -/
theorem updateProfile_userKept {displayName : Option String} {emailIsSet : Bool}
    {email status : Option String} {departmentId : Option Nat} {s : Snap} {r : UserRow}
    (hstatus : status.any (· != "active") = false) :
    UserKept (some r) (some ((Repositories.Users.updateProfileStmt u displayName emailIsSet email
      status departmentId).set s r)) := by
  rintro ⟨r', hr', hlive, hactive⟩
  cases hr'
  refine ⟨_, rfl, hlive, ?_⟩
  cases status with
  | none => exact hactive
  | some st =>
    have hst : st = "active" := by simpa using hstatus
    exact hst

/-- **The guard and the changes of an update.** -/
theorem applyUpdate_keeps {id : Nat} {req : UpdateUserRequest}
    {passwordHash displayName email : Option String} {emailIsSet : Bool} :
    Triple ((rosterContract R).judge p) p (Roster R fun _ => False)
      (Services.Users.applyUpdate id req passwordHash displayName emailIsSet email)
      fun _ => Roster R fun _ => False := by
  unfold Services.Users.applyUpdate
  by_cases hstatus : req.status.any (· != "active") = true
  · -- the account may lose its status: the guard protects another holder
    simp only [hstatus, Prog.whenever, if_true]
    refine protectLastSuperAdmin_guards.bind fun _ => ?_
    refine (guarded (.bind (.ifSome fun hash => ?_) fun _ => updateProfile_within fun _ _ _ => rfl)
      ).post fun _ _ h => h.roster
    exact .bind (updatePassword_onlyUser hash) fun _ => Prog.All.all_reject _ _
  · -- the account keeps its status
    have hkept : req.status.any (· != "active") = false := by simpa using hstatus
    simp only [hkept, Prog.whenever, if_false, Bool.false_eq_true, Prog.ret_bind]
    refine Triple.within stable_roster Roster.frameClosed (.bind (.ifSome fun hash => ?_)
      fun _ => updateProfile_within fun _ _ _ => updateProfile_userKept hkept)
    refine .bind (.bind (Prog.All.update (fun _ _ r _ => ?_) trivial) fun _ => .ret)
      fun _ => Prog.All.all_reject _ _
    rintro ⟨r', hr', hlive⟩
    cases hr'
    exact ⟨_, rfl, hlive⟩

theorem update_keeps {env : External} {id : Nat} {actor : Option ActorContext}
    {req : UpdateUserRequest} {canGrantSuperAdmin canAssignDepartment : Bool} :
    Triple ((rosterContract R).judge p) p (fun _ => True)
      (Services.Users.update env id actor req canGrantSuperAdmin canAssignDepartment)
      fun _ _ => True := by
  refine (skip (Services.Users.ensureActorCanAccess_within _ _)).bind fun _ => ?_
  refine (skip (.ifSome fun _ => .ifSome fun _ =>
    Services.Users.validateDepartment_within _ _ _ _)).bind fun _ => ?_
  refine (skip (Prog.All.all_reject _ _)).bind fun _ => ?_
  refine (skip (.ifSome fun _ => Services.Users.validateStatus_within _ _ _ _)).bind fun _ => ?_
  refine (skip (Services.Users.newPasswordHash_within _ _)).bind fun passwordHash => ?_
  refine begin_roster.bind fun _ => ?_
  refine applyUpdate_keeps.bind fun row => ?_
  refine (beside (Prog.All.all_okOr _ _)).bind fun _ => ?_
  refine (beside (.whenever (.bind (Repositories.AuthSessions.revokeAllForUser_within
    (free_tables (by decide)).edits _) fun _ => Services.Auth.recordSessionRevocation_within
      (free_tables (by decide)) _ _ _ _))).bind fun _ => ?_
  refine (beside (Repositories.AuditLogs.record_within (free_tables (by decide)) _ _ _ _ _)).bind
    fun _ => ?_
  refine commit_roster.bind fun _ => ?_
  exact skip (.bind (Repositories.Users.roleNamesByUser_within _) fun _ => .ret)

/-- **A role keeps its code.** -/
theorem roles_update_within (id : Nat) (role : Repositories.Roles.RoleUpdate) :
    (Repositories.Roles.update id role).All (Act.Within (rosterChange R fun _ => False)) := by
  refine .bind (Prog.All.update (fun _ _ r _ => ⟨?_, fun _ => ?_⟩) trivial) fun _ => .ret
  · rintro ⟨r', hr', hcode⟩
    cases hr'
    exact ⟨r, rfl, hcode⟩
  · rintro ⟨r', hr', hcode⟩
    cases hr'
    exact ⟨_, rfl, hcode⟩

theorem updateRole_keeps {actorUserId : Option Nat} {actorDataScope : DataScope} {id : Nat}
    {req : UpdateRoleRequest} :
    Triple ((rosterContract R).judge p) p (fun _ => True)
      (Services.Roles.update actorUserId actorDataScope id req) fun _ _ => True := by
  refine (skip (Prog.All.all_reject _ _)).bind fun _ => ?_
  refine (skip (Prog.All.all_reject _ _)).bind fun _ => ?_
  refine (skip (.whenever (Services.Roles.validateDeactivation_within _))).bind fun _ => ?_
  refine (skip (.ifSome fun _ => Services.Roles.validateScopeUpdate_within _ _ _)).bind fun _ => ?_
  refine (skip (.whenever (Services.Roles.validateActivation_within _ _))).bind fun _ => ?_
  refine (skip (.ifSome fun _ => Prog.All.all_reject _ _)).bind fun _ => ?_
  refine begin_roster.bind fun _ => ?_
  refine (Triple.within stable_roster Roster.frameClosed (roles_update_within id _)).bind
    fun _ => ?_
  refine (beside (Prog.All.all_reject _ _)).bind fun _ => ?_
  refine (beside (Repositories.AuditLogs.record_within (free_tables (by decide)) _ _ _ _ _)).bind
    fun _ => ?_
  exact commit_roster.bind fun _ => skip (Services.Roles.get_within _)

/-- The role that passes the check on its code is not `R`. -/
theorem findById_finds {id : Nat} : Triple ((rosterContract R).judge p) p (fun _ => True)
    (Repositories.Roles.findById id)
    fun o _ => ∀ found, o = some found → found.row.code ≠ "super_admin" → id ≠ R := by
  refine Triple.bind (R := fun s _ => ∀ row, s.store.get .roles id = some row →
    row.code ≠ "super_admin" → id ≠ R) ?_ fun s => Triple.ret (Judge.Stable.const _) ?_
  · refine Triple.poolQuery (fun _ _ _ h => h) (fun _ => Judge.Stable.const _) fun c hb _ => ?_
    rintro row hrow hcode rfl
    obtain ⟨r, hr, hsa⟩ := hb.2.1
    have hrow' : c.server.store.get .roles id = some row := hrow
    rw [hrow'] at hr
    cases hr
    exact hcode hsa
  · intro c _ hc found hfound hcode
    obtain ⟨row, hrow, rfl⟩ := Option.map_eq_some_iff.1 hfound
    exact hc row hrow hcode

/-- **Deleting a role other than `R`** takes `R` from nobody. -/
theorem deleteIfUnassigned_keeps {id : Nat} (hid : id ≠ R) :
    Triple ((rosterContract R).judge p) p (Roster R fun _ => False)
      (Repositories.Roles.deleteIfUnassigned id) fun _ => Roster R fun _ => False := by
  have hkey : ∀ s (i : Nat) r, (Repositories.Roles.deleteIfUnassignedStmt id).cond s i r = true →
      i = id := fun s i r h => by
    simpa using (Bool.and_eq_true_iff.1 h).1
  refine (Triple.delete (d := Repositories.Roles.deleteIfUnassignedStmt id)
    (K := fun i => (i : Nat) = id) stable_roster Roster.frameClosed hkey fun s i r h => ?_).bind
    fun deleted => ?_
  · refine ⟨?_, fun hR => absurd (hkey s i r h ▸ hR) hid⟩
    rintro ⟨r', hr', _⟩
    cases hr'
  refine Triple.assuming fun hdeleted => ?_
  refine (Triple.forEach stable_roster fun i hi => ?_).bind fun _ =>
    Triple.ret stable_roster fun _ _ hc => hc
  have hi' : i = id := hdeleted i hi
  subst hi'
  -- the assignments that go with the role are assignments of another role
  refine Triple.within stable_roster Roster.frameClosed (.bind (Prog.All.delete
    (fun s k r h => ?_) trivial) fun _ => .bind (Prog.All.delete (fun _ _ _ _ => trivial) trivial)
      fun _ => .ret)
  have hk : k.2 = i := by simpa [Repositories.Roles.cascadeUserRolesStmt] using h
  exact fun hR => absurd (hk ▸ hR) hid

theorem deleteRole_keeps {actorUserId : Option Nat} {id : Nat} :
    Triple ((rosterContract R).judge p) p (fun _ => True)
      (Services.Roles.delete actorUserId id) fun _ _ => True := by
  refine findById_finds.bind fun row => ?_
  refine (Triple.assuming fun hrow => ?_).pre fun c hc => ⟨hc, trivial⟩
  refine (Triple.okOr (Judge.Stable.const _)).bind fun found => Triple.assuming fun hfound => ?_
  refine (Triple.reject (Judge.Stable.const _)).bind fun _ => Triple.assuming fun hcode => ?_
  have hid : id ≠ R := hrow found hfound (by simpa using hcode)
  refine (skip (Prog.All.all_reject _ _)).bind fun _ => ?_
  refine begin_roster.bind fun _ => (deleteIfUnassigned_keeps hid).bind fun _ => ?_
  refine (beside (Prog.All.all_reject _ _)).bind fun _ => ?_
  exact (beside (Repositories.AuditLogs.record_within (free_tables (by decide)) _ _ _ _ _)).bind
    fun _ => commit_roster

theorem assignPermissions_keeps {actorUserId : Option Nat} {id : Nat}
    {req : UpdateRolePermissionsRequest} :
    Triple ((rosterContract R).judge p) p (fun _ => True)
      (Services.Roles.assignPermissions actorUserId id req) fun _ _ => True := by
  refine (skip (Repositories.Roles.findById_within _)).bind fun _ => ?_
  refine (skip (Prog.All.all_okOr _ _)).bind fun _ => ?_
  refine (skip (Prog.All.all_reject _ _)).bind fun _ => begin_roster.bind fun _ => ?_
  refine (beside (Services.Roles.validatePermissionDependencies_within _)).bind fun _ => ?_
  refine (beside (Services.Roles.validatePermissionGrantScope_within _ _)).bind fun _ => ?_
  refine (beside (Repositories.Roles.permissionIdsByRole_within _)).bind fun _ => ?_
  refine (beside (Repositories.Roles.assignPermissions_within (free_tables (by decide)) _ _)).bind
    fun _ => (note_roster _).bind fun _ => ?_
  exact (beside (Repositories.AuditLogs.record_within (free_tables (by decide)) _ _ _ _ _)).bind
    fun _ => commit_roster

end Update

/-! ## The main theorem

All programs keep the contract, so its invariant holds in every reachable state.
-/

/-- **Every program of the eight operations keeps the contract.** -/
theorem adminRequests_keep (env : External) {R : Nat} {s₀ : Server Table} (hwf : s₀.Wf)
    (hinv : (rosterContract R).inv s₀) :
    (rosterContract R).Kept (serveAdmin env) s₀ fun _ _ _ _ => True where
  base _ h p := h.wf hwf p
  init := hinv
  advance _ _ _ h := h
  prog p req := by
    refine Triple.pre ?_ fun _ _ => trivial
    cases req with
    | updateUser id actor req canGrant canAssign => exact update_keeps.bind fun _ => skip .ret
    | deleteUser id actor => exact delete_keeps
    | deleteUsers actor req => exact deleteMany_keeps
    | assignRoles actor userId req canGrant => exact assignRoles_service_keeps
    | assignRolesMany actor req canGrant => exact assignRolesMany_keeps
    | updateRole actorUserId scope id req => exact updateRole_keeps.bind fun _ => skip .ret
    | deleteRole actorUserId id => exact deleteRole_keeps
    | assignPermissions actorUserId id req => exact assignPermissions_keeps

/-- **The last super administrator stays**: in every interleaving of any number of the eight
operations, if at the start a live user with status `active` holds the role `super_admin`, then
one does in every committed state. -/
theorem superAdmin_remains (env : External) {s₀ : Server Table} (hwf : s₀.Wf)
    (hunique : SuperAdminUnique s₀.store) (h₀ : HasSuperAdmin s₀.store)
    {C : Config Table ApiError Unit AdminRequest} (h : Reachable (serveAdmin env) s₀ C) :
    HasSuperAdmin C.server.store := by
  obtain ⟨R, v, hR, hv⟩ := h₀
  have hinv : (rosterContract R).inv s₀ := ⟨hR, fun id hid => hunique id R hid hR, v, hv⟩
  obtain ⟨hR', _, w, hw⟩ := (Contract.sound (adminRequests_keep env hwf hinv) h).1
  exact ⟨R, w, hR', hw⟩

/-- The sample installation after `helper` has become a second super administrator and the first
has been deleted. -/
theorem superAdmin_remains_sample :
    HasSuperAdmin (play (serveAdmin Sample.external) 0 Sample.server
      [.request (.assignRoles none 11 ⟨[1]⟩ true), .request (.deleteUser 10 none)]).store := by
  have hunique : SuperAdminUnique Sample.server.store := by
    rintro id id' ⟨r, hr, hcode⟩ ⟨r', hr', hcode'⟩
    rw [Sample.superAdmin_id hr hcode, Sample.superAdmin_id hr' hcode']
  have hholder : HasSuperAdmin Sample.server.store :=
    ⟨1, 10, ⟨_, rfl, rfl⟩, ⟨_, rfl, rfl, rfl⟩, rfl⟩
  obtain ⟨n, h⟩ := reachable_play (serveAdmin Sample.external) Sample.server
    [.request (.assignRoles none 11 ⟨[1]⟩ true), .request (.deleteUser 10 none)]
  exact superAdmin_remains Sample.external Sample.server_wf hunique hholder h

end ArcAdmin
