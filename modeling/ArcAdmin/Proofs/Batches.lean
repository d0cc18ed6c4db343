import ArcAdmin.LastMember
import ArcAdmin.Proofs.DepartmentDeletion
import ArcAdmin.Proofs.LastSuperAdmin
import ArcAdmin.Proofs.Steps

/-!
# Batches and their single steps

`delete_many` and `assign_roles_many` do for a list of accounts, in one transaction, what `delete`
and `assign_roles` do for one. Both ways have the same outcome: what a step checks of an account is
the same after the other accounts have been handled, but for the guard of the last super
administrator, and the guard lets a list pass or not whatever its order.

* **`AccountEffect`**, **`Handled`** — what an operation does to accounts, timestamps left out;
* **`deleteOne_ends`**, **`replaceRoles_ends`** — when one step succeeds, and its effect;
* **`Operation`** — the steps of a batch and the single steps, with what both rest on;
* **`batches`** — they agree, in any order of the single steps.
-/

namespace ArcAdmin

open ReadCommitted
open LastMember (Spares Drains)
open Repositories.Departments (Belongs)
open Prog.All

/-! ## Rows without their timestamps

The single steps take place at different times, so the outcomes are compared without the times at
which something was changed.
-/

/-- The account without the times at which it was changed and deleted. -/
def UserRow.untimed (row : UserRow) : UserRow :=
  { row with deletedAt := row.deletedAt.map fun _ => 0, updatedAt := 0 }

/-- The session without the time at which it was revoked. -/
def SessionRow.untimed (row : SessionRow) : SessionRow :=
  { row with revokedAt := row.revokedAt.map fun _ => 0 }

@[simp] theorem UserRow.untimed_status (row : UserRow) : row.untimed.status = row.status := rfl

@[simp] theorem UserRow.untimed_organizationId (row : UserRow) :
    row.untimed.organizationId = row.organizationId := rfl

@[simp] theorem UserRow.untimed_departmentId (row : UserRow) :
    row.untimed.departmentId = row.departmentId := rfl

@[simp] theorem UserRow.untimed_deletedAt (row : UserRow) :
    row.untimed.deletedAt = none ↔ row.deletedAt = none := Option.map_eq_none_iff

@[simp] theorem SessionRow.untimed_userId (row : SessionRow) :
    row.untimed.userId = row.userId := rfl

/-- **The same accounts, role assignments and sessions up to timestamps**, and the same in every
other table but the audit log. -/
structure SameButTimes (σ σ' : Store Table) : Prop where
  users : ∀ u, (σ.get .users u).map UserRow.untimed = (σ'.get .users u).map UserRow.untimed
  roles : ∀ u roleId : Nat, (σ.get .userRoles (u, roleId)).isSome =
    (σ'.get .userRoles (u, roleId)).isSome
  sessions : ∀ k, (σ.get .authSessions k).map SessionRow.untimed =
    (σ'.get .authSessions k).map SessionRow.untimed
  tables : ∀ t, t ∉ [Table.users, .userRoles, .authSessions, .auditLogs] → σ t = σ' t

/-! ## What an operation does to accounts

The effect of handling a set of accounts, whatever the order. It determines the tables, so two
ways with the same effect have the same outcome.
-/

/-- **What an operation does to an account**: to its row, to the roles it has afterwards, and to its
sessions. -/
structure AccountEffect where
  user : UserRow → UserRow
  role : Nat → Bool
  session : SessionRow → SessionRow
  user_organization : ∀ row, (user row).organizationId = row.organizationId
  user_department : ∀ row, (user row).departmentId = row.departmentId
  session_user : ∀ row, (session row).userId = row.userId

/-- The account is deleted: it has no roles any more, and its sessions are revoked. -/
def AccountEffect.deletion : AccountEffect where
  user row := { row with deletedAt := some 0 }
  role _ := false
  session row := { row with revokedAt := some 0 }
  user_organization _ := rfl
  user_department _ := rfl
  session_user _ := rfl

/-- The account has exactly these roles. -/
def AccountEffect.assignment (roleIds : List Nat) : AccountEffect where
  user row := row
  role := roleIds.contains
  session row := row
  user_organization _ := rfl
  user_department _ := rfl
  session_user _ := rfl

/-- **The accounts `ids` have been handled**, and nothing else has changed. Rows are compared
without their timestamps, so that the order in which the accounts are handled does not show. -/
structure Handled (e : AccountEffect) (ids : List Nat) (σ σ' : Store Table) : Prop where
  users : ∀ u : Nat, (σ'.get .users u).map UserRow.untimed = (σ.get .users u).map fun row =>
    if u ∈ ids then e.user (UserRow.untimed row) else UserRow.untimed row
  roles : ∀ u roleId : Nat, (σ'.get .userRoles (u, roleId)).isSome =
    if u ∈ ids then e.role roleId else (σ.get .userRoles (u, roleId)).isSome
  sessions : ∀ k, (σ'.get .authSessions k).map SessionRow.untimed =
    (σ.get .authSessions k).map fun row : SessionRow =>
      if row.userId ∈ ids then e.session row.untimed else row.untimed
  tables : ∀ t, t ∉ [Table.users, .userRoles, .authSessions, .auditLogs] → σ' t = σ t

namespace Handled

variable {e : AccountEffect} {σ σ₁ σ₂ σ' : Store Table} {a u : Nat} {as ids ids' : List Nat}

theorem nil (e : AccountEffect) (σ : Store Table) : Handled e [] σ σ where
  users u := by cases h : σ.get .users u <;> simp
  roles u roleId := by simp
  sessions k := by cases h : σ.get .authSessions k <;> simp
  tables _ _ := rfl

/-- One account after the other. -/
theorem cons (h : Handled e [a] σ σ₁) (h' : Handled e as σ₁ σ') (ha : a ∉ as) :
    Handled e (a :: as) σ σ' where
  users u := by
    have hsplit : (σ'.get .users u).map UserRow.untimed =
        ((σ₁.get .users u).map UserRow.untimed).map fun row =>
          if u ∈ as then e.user row else row := by
      rw [h'.users u, Option.map_map]
      rfl
    rw [hsplit, h.users u, Option.map_map]
    congr 1
    funext row
    by_cases hu : u = a
    · subst hu
      simp [ha]
    · simp [hu]
  roles u roleId := by
    rw [h'.roles u roleId, h.roles u roleId]
    by_cases hu : u = a
    · subst hu
      simp [ha]
    · simp [hu]
  sessions k := by
    have hsplit : (σ'.get .authSessions k).map SessionRow.untimed =
        ((σ₁.get .authSessions k).map SessionRow.untimed).map fun row =>
          if row.userId ∈ as then e.session row else row := by
      rw [h'.sessions k, Option.map_map]
      rfl
    rw [hsplit, h.sessions k, Option.map_map]
    congr 1
    funext row
    by_cases hu : row.userId = a
    · simp [hu, ha, e.session_user]
    · simp [hu]
  tables t ht := (h'.tables t ht).trans (h.tables t ht)

/-- **The effect depends on the accounts as a set**, and is determined up to timestamps. -/
theorem same (h : Handled e ids σ σ₁) (h' : Handled e ids' σ σ₂) (hids : ∀ u, u ∈ ids ↔ u ∈ ids') :
    SameButTimes σ₁ σ₂ where
  users u := by
    rw [h.users u, h'.users u]
    simp only [hids]
  roles u roleId := by
    rw [h.roles u roleId, h'.roles u roleId]
    simp only [hids]
  sessions k := by
    rw [h.sessions k, h'.sessions k]
    simp only [hids]
  tables t ht := (h.tables t ht).trans (h'.tables t ht).symm

/-- An account that was not handled. -/
theorem user_of_not_mem (h : Handled e ids σ σ') (hu : u ∉ ids) :
    (σ'.get .users u).map UserRow.untimed = (σ.get .users u).map UserRow.untimed := by
  rw [h.users u]
  simp only [hu, if_false]

/-- The row before the operation, for an account that there is afterwards. -/
theorem user_of_get (h : Handled e ids σ σ') {row' : UserRow} (hrow : σ'.get .users u = some row') :
    ∃ row : UserRow, σ.get .users u = some row ∧ row'.organizationId = row.organizationId ∧
      row'.departmentId = row.departmentId := by
  have husers := h.users u
  rw [hrow, Option.map_some] at husers
  obtain ⟨row, hget, heq⟩ := Option.map_eq_some_iff.1 husers.symm
  refine ⟨row, hget, ?_, ?_⟩
  · have horg := congrArg UserRow.organizationId heq
    split at horg
    · simpa [e.user_organization] using horg.symm
    · simpa using horg.symm
  · have hdept := congrArg UserRow.departmentId heq
    split at hdept
    · simpa [e.user_department] using hdept.symm
    · simpa using hdept.symm

/-- No account comes or goes. -/
theorem isSome_user (h : Handled e ids σ σ') (u : Nat) :
    (σ'.get .users u).isSome = (σ.get .users u).isSome := by
  have husers := congrArg Option.isSome (h.users u)
  simpa using husers

theorem linked (h : Handled e ids σ σ') (hlinked : Linked σ) : Linked σ' where
  organization u row' hu := by
    obtain ⟨row, hrow, horg, _⟩ := h.user_of_get hu
    obtain ⟨o, ho⟩ := hlinked.organization u row hrow
    refine ⟨o, ?_⟩
    rw [horg]
    unfold Store.get at ho ⊢
    rwa [h.tables _ (by simp)]
  department u row' d hu hd := by
    obtain ⟨row, hrow, horg, hdept⟩ := h.user_of_get hu
    obtain ⟨drow, hdrow, hin⟩ := hlinked.department u row d hrow (hdept.symm.trans hd)
    refine ⟨drow, ?_, hin.trans horg.symm⟩
    unfold Store.get at hdrow ⊢
    rwa [h.tables _ (by simp)]

end Handled

/-! ## The guard of the last super administrator

The guard counts the active holders of one role. Which lists of accounts it lets pass one after
the other is a question about sets, which `ArcAdmin.LastMember` answers.
-/

/-- The role that the guard locks. -/
def superAdminRole (s : Snap) : Option Nat :=
  (s.selected .roles fun _ (row : RoleRow) => row.code == "super_admin").head?.map Prod.fst

/-- The active holders that the guard counts. -/
def guardedHolders (s : Snap) : Finset Nat :=
  (superAdminRole s).elim ∅ fun roleId => (Repositories.Users.activeHolders s roleId).toFinset

theorem mem_guardedHolders {s : Snap} {u : Nat} : u ∈ guardedHolders s ↔
    ∃ roleId, superAdminRole s = some roleId ∧ ActiveHolder s.store roleId u := by
  unfold guardedHolders
  cases superAdminRole s with
  | none => simp
  | some roleId =>
    rw [Option.elim_some, List.mem_toFinset, mem_activeHolders]
    simp

/-- The guard reads the tables and nothing else. -/
theorem superAdminRole_congr {s s' : Snap} (h : s'.store .roles = s.store .roles) :
    superAdminRole s' = superAdminRole s := by
  unfold superAdminRole Snapshot.selected Store.rows
  rw [h]

theorem guardedHolders_congr {s s' : Snap} (h : s'.store = s.store) :
    guardedHolders s' = guardedHolders s := by
  have hrole : superAdminRole s' = superAdminRole s := superAdminRole_congr (by rw [h])
  ext u
  rw [mem_guardedHolders, mem_guardedHolders, hrole, h]

section Guard

variable {n : Nat} {c c' : Conn Table} {id : Nat}

theorem guardedHolders_of_role {s : Snap} {roleId : Nat} (h : superAdminRole s = some roleId) :
    guardedHolders s = (Repositories.Users.activeHolders s roleId).toFinset := by
  unfold guardedHolders
  rw [h]
  rfl

variable (id) in
/-- What the guard reads. -/
theorem superAdminGuardState_ends (hopen : c.tx.isSome) : ∃ c₁ b,
    Ends n (Repositories.Users.superAdminGuardState id) c (b, (guardedHolders c.snapshot).card) c₁ ∧
      Spared (tables []) c c₁ ∧ (b = true ↔ id ∈ guardedHolders c.snapshot) := by
  obtain ⟨c₁, hlock, hsame⟩ := selectForUpdate_ends (ε := ApiError) (p := n) (t := .roles)
    (fun _ _ (row : RoleRow) => row.code == "super_admin") hopen
  have hview : guardedHolders c.snapshot = guardedHolders c₁.snapshot :=
    (guardedHolders_congr hsame.view_eq).symm
  have hrole : superAdminRole c₁.snapshot = superAdminRole c.snapshot :=
    superAdminRole_congr (congrFun hsame.view_eq _)
  cases hhead : (c.snapshot.selected .roles
      fun _ (row : RoleRow) => row.code == "super_admin").head? with
  | none =>
    have hnone : guardedHolders c.snapshot = ∅ := by
      unfold guardedHolders superAdminRole
      rw [hhead]
      rfl
    rw [hnone]
    refine ⟨c₁, false, ends_bind.2 ⟨_, _, hlock, ?_⟩, hsame, by simp⟩
    rw [hhead]
    exact ends_ret.2 ⟨rfl, rfl⟩
  | some e =>
    have hsome : superAdminRole c₁.snapshot = some e.1 := by
      rw [hrole]
      unfold superAdminRole
      rw [hhead]
      rfl
    have hnodup : (Repositories.Users.activeHolders c₁.snapshot e.1).Nodup := List.nodup_dedup _
    rw [hview, guardedHolders_of_role hsome, List.toFinset_card_of_nodup hnodup]
    refine ⟨c₁, (Repositories.Users.activeHolders c₁.snapshot e.1).contains id,
      ends_bind.2 ⟨_, _, hlock, ?_⟩, hsame, ?_⟩
    · rw [hhead]
      exact ends_bind.2 ⟨_, _, ends_query.2 ⟨rfl, rfl⟩, ends_ret.2 ⟨rfl, rfl⟩⟩
    · rw [List.mem_toFinset]
      exact List.contains_iff_mem

variable (id) in
/-- **`protect_last_super_admin`** passes unless the account is the last active holder. -/
theorem protectLastSuperAdmin_ends (hopen : c.tx.isSome) : ∃ c₁,
    (∃ state, Ends n (Repositories.Users.superAdminGuardState id) c state c₁) ∧
      Spared (tables []) c c₁ ∧
      ∀ c', Ends n (Services.Users.protectLastSuperAdmin id) c () c' ↔
        Spares (guardedHolders c.snapshot) id ∧ c' = c₁ := by
  obtain ⟨c₁, b, hstate, hsame, hb⟩ := superAdminGuardState_ends (n := n) id hopen
  refine ⟨c₁, ⟨_, hstate⟩, hsame, fun c' => ?_⟩
  unfold Services.Users.protectLastSuperAdmin
  rw [ends_bind]
  constructor
  · rintro ⟨_, d, hd, hreject⟩
    obtain ⟨rfl, rfl⟩ := hstate.iff.1 hd
    obtain ⟨hfalse, rfl⟩ := ends_reject.1 hreject
    refine ⟨fun hmem => ?_, rfl⟩
    rw [hb.2 hmem, Bool.true_and, decide_eq_false_iff_not] at hfalse
    omega
  · rintro ⟨hspares, rfl⟩
    refine ⟨_, _, hstate, ends_reject.2 ⟨?_, rfl⟩⟩
    cases hbool : b with
    | false => rfl
    | true =>
      have hmore := hspares (hb.1 hbool)
      rw [Bool.true_and, decide_eq_false_iff_not]
      omega

end Guard

/-- A row that is active is so without its timestamps. -/
theorem isActiveRow_untimed {row : Option UserRow} :
    IsActiveRow (row.map UserRow.untimed) ↔ IsActiveRow row := by
  unfold IsActiveRow
  constructor
  · rintro ⟨u, hu, hlive, hstatus⟩
    obtain ⟨row, rfl, rfl⟩ := Option.map_eq_some_iff.1 hu
    exact ⟨row, rfl, UserRow.untimed_deletedAt row |>.1 hlive, hstatus⟩
  · rintro ⟨row, rfl, hlive, hstatus⟩
    exact ⟨row.untimed, rfl, (UserRow.untimed_deletedAt row).2 hlive, hstatus⟩

/-- **An account that has been handled is no holder any more**, if it loses the role. -/
theorem Handled.guardedHolders {e : AccountEffect} {ids : List Nat} {s s' : Snap}
    (h : Handled e ids s.store s'.store)
    (hrole : ∀ roleId, superAdminRole s = some roleId → e.role roleId = false) :
    guardedHolders s' = guardedHolders s \ ids.toFinset := by
  ext u
  rw [Finset.mem_sdiff, List.mem_toFinset, mem_guardedHolders, mem_guardedHolders,
    superAdminRole_congr (h.tables _ (by simp))]
  unfold ActiveHolder
  by_cases hu : u ∈ ids
  · constructor
    · rintro ⟨roleId, hsuper, _, hholds⟩
      rw [h.roles, if_pos hu, hrole roleId hsuper] at hholds
      cases hholds
    · exact fun hnot => absurd hu hnot.2
  · have hactive : IsActiveRow (s'.store.get .users u) ↔ IsActiveRow (s.store.get .users u) := by
      rw [← isActiveRow_untimed, h.user_of_not_mem hu, isActiveRow_untimed]
    have hholds : ∀ roleId : Nat, (s'.store.get .userRoles (u, roleId)).isSome =
        (s.store.get .userRoles (u, roleId)).isSome := by
      intro roleId
      rw [h.roles, if_neg hu]
    simp only [hactive, hholds]
    simp [hu]

/-! ## The statements of one step

Run alone inside a transaction whose actor exists, each statement does what it says.
-/

/-- **The open transaction of an actor** whose account exists. -/
structure Ready (c : Conn Table) (actorUserId : Nat) : Prop where
  isOpen : c.tx.isSome
  wf : c.Wf
  linked : Linked c.view
  actor : (c.view.get .users actorUserId).isSome

section Statements

variable {n : Nat} {c c' : Conn Table} {id actorUserId : Nat}

theorem Ready.of_handled {e : AccountEffect} {ids : List Nat} (h : Ready c actorUserId)
    (hopen : c'.tx.isSome) (hwf : c'.Wf) (hhandled : Handled e ids c.view c'.view) :
    Ready c' actorUserId where
  isOpen := hopen
  wf := hwf
  linked := hhandled.linked h.linked
  actor := (hhandled.isSome_user actorUserId).trans h.actor

/-- A program that changes neither accounts nor what they refer to. -/
theorem Ready.of_spared {α : Type} {m : Db α} {a : α} {ts : List Table} (h : Ready c actorUserId)
    (hends : Ends n m c a c') (hspared : Spared (tables ts) c c')
    (hts : Table.users ∉ ts ∧ Table.organizations ∉ ts ∧ Table.departments ∉ ts) :
    Ready c' actorUserId where
  isOpen := hspared.isOpen.trans h.isOpen
  wf := hends.wf h.wf
  linked := by
    have husers : ∀ u, c'.view.get .users u = c.view.get .users u :=
      fun u => hspared.view_get (frozen_tables hts.1) u
    constructor
    · intro u row hu
      rw [husers u] at hu
      rw [hspared.view_get (t := .organizations) (frozen_tables hts.2.1)]
      exact h.linked.organization u row hu
    · intro u row d hu hd
      rw [husers u] at hu
      obtain ⟨drow, hdrow, hin⟩ := h.linked.department u row d hu hd
      exact ⟨drow, (hspared.view_get (t := .departments) (frozen_tables hts.2.2) d).trans hdrow, hin⟩
  actor := by
    rw [hspared.view_get (t := .users) (frozen_tables hts.1)]
    exact h.actor

/-- A step of an operation writes its audit records. -/
theorem Ready.record (h : Ready c actorUserId) (action targetType : String) (targetId : Option Nat)
    (details : List (String × Detail)) : ∃ c',
    Ends n (Repositories.AuditLogs.record (some actorUserId) action targetType targetId details) c ()
      c' ∧ Spared (tables [.auditLogs]) c c' ∧ Ready c' actorUserId := by
  obtain ⟨row, hrow⟩ := Option.isSome_iff_exists.1 h.actor
  obtain ⟨c', hends⟩ : ∃ c', Ends n (Repositories.AuditLogs.record (some actorUserId) action
      targetType targetId details) c () c' := by
    refine Repositories.AuditLogs.record_ends h.isOpen h.wf h.linked fun u hu => ?_
    cases hu
    exact ⟨row, hrow⟩
  have hspared := Repositories.AuditLogs.record_spared hends
  exact ⟨c', hends, hspared, h.of_spared hends hspared (by simp)⟩

/-- The live account under that key. -/
def Live (σ : Store Table) (id : Nat) : Prop :=
  ∃ row : UserRow, σ.get .users id = some row ∧ row.deletedAt = none

namespace Repositories.Users

variable (id) in
/-- `DELETE FROM user_roles WHERE user_id = …`. -/
theorem clearRoles_ends (hopen : c.tx.isSome) : ∃ ids c',
    Ends n ((clearRolesStmt id).exec : Db _) c ids c' ∧ Spared (tables [.userRoles]) c c' ∧
      ∀ u roleId : Nat, c'.view.get .userRoles (u, roleId) =
        if u = id then none else c.view.get .userRoles (u, roleId) := by
  obtain ⟨c', hends, hspared, hget⟩ := (clearRolesStmt id).ends (ε := ApiError) (p := n) hopen
    fun k row hrow => by
      have hstored : c.snapshot.store.get .userRoles k = some row := hrow
      simp only [clearRolesStmt, hstored]
      exact row.isStored_some
  refine ⟨_, c', hends, hspared, fun u roleId => ?_⟩
  rw [hget]
  cases hrow : c.view.get .userRoles (u, roleId) with
  | none => simp
  | some row => by_cases hu : u = id <;> simp [clearRolesStmt, hu]

/-- **`soft_delete`** of a live account. -/
theorem softDelete_ends {row : UserRow} (hopen : c.tx.isSome)
    (hrow : c.view.get .users id = some row) (hlive : row.deletedAt = none) : ∃ c',
    Ends n (softDelete id) c true c' ∧ Spared (tables [.users, .userRoles]) c c' ∧
      (∀ u, c'.view.get .users u =
        if u = id then some ((softDeleteStmt id).set c.snapshot row) else c.view.get .users u) ∧
      ∀ u roleId : Nat, c'.view.get .userRoles (u, roleId) =
        if u = id then none else c.view.get .userRoles (u, roleId) := by
  obtain ⟨c₁, hexec, hspared, hother, hcase⟩ :=
    updateOne_ends (n := n) (softDeleteStmt id) (fun _ _ _ => rfl) hopen
  rcases hcase with ⟨old, hold, _, hnew, hrows⟩ | ⟨hdeleted, _⟩
  · rw [hrow] at hold
    cases hold
    obtain ⟨keys, c₂, hclear, hspared₂, hget⟩ :=
      clearRoles_ends (n := n) id (hspared.isOpen.trans hopen)
    have hclears : Ends n (Prog.whenever true do
        let _ ← (clearRolesStmt id).exec) c₁ () c₂ :=
      ends_whenever.2 (.inl ⟨rfl, ends_bind.2 ⟨_, _, hclear, ends_ret.2 ⟨rfl, rfl⟩⟩⟩)
    refine ⟨c₂, ?_, ?_, fun u => ?_, fun u roleId => ?_⟩
    · refine ends_bind.2 ⟨_, _, hexec, ?_⟩
      rw [hrows]
      exact ends_bind.2 ⟨_, _, hclears, ends_ret.2 ⟨rfl, rfl⟩⟩
    · exact (hspared.mono fun t _ _ _ _ ht => by simp_all [tables]).trans
        (hspared₂.mono fun t _ _ _ _ ht => by simp_all [tables])
    · rw [hspared₂.view_get (t := .users) (frozen_tables (by simp))]
      by_cases hu : u = id
      · rw [hu, if_pos rfl, hnew]
      · rw [if_neg hu, hother u hu]
    · rw [hget, hspared.view_get (t := .userRoles) (frozen_tables (by simp))]
  · have hsome := hdeleted row hrow
    rw [hlive] at hsome
    cases hsome

/-- Only a live account is deleted. -/
theorem live_of_softDelete (hopen : c.tx.isSome) (h : Ends n (softDelete id) c true c') :
    Live c.view id := by
  obtain ⟨rows, c₁, hexec, hrest⟩ := ends_bind.1 h
  obtain ⟨_, c₂, _, hret⟩ := ends_bind.1 hrest
  obtain ⟨hnonempty, _⟩ := ends_ret.1 hret
  obtain ⟨_, hends, _, _, hcase⟩ :=
    updateOne_ends (n := n) (softDeleteStmt id) (fun _ _ _ => rfl) hopen
  obtain ⟨rfl, rfl⟩ := hends.iff.1 hexec
  rcases hcase with ⟨row, hrow, hlive, _⟩ | ⟨_, _, hnil⟩
  · exact ⟨row, hrow, hlive⟩
  · rw [hnil] at hnonempty
    cases hnonempty

/-- `INSERT INTO user_roles` for one role after the other. -/
theorem insertRoles_ends {roleIds : List Nat} (hnodup : roleIds.Nodup) {c : Conn Table}
    (hopen : c.tx.isSome) (huser : (c.view.get .users id).isSome)
    (hroles : ∀ roleId ∈ roleIds, (c.view.get .roles roleId).isSome)
    (hfree : ∀ roleId ∈ roleIds, c.view.get .userRoles (id, roleId) = none) : ∃ c',
    Ends n (Prog.forEach roleIds fun roleId => assignRole id roleId) c () c' ∧
      Spared (tables [.userRoles]) c c' ∧
      ∀ u roleId : Nat, (c'.view.get .userRoles (u, roleId)).isSome =
        (decide (u = id ∧ roleId ∈ roleIds) || (c.view.get .userRoles (u, roleId)).isSome) := by
  induction roleIds generalizing c with
  | nil => exact ⟨c, ends_ret.2 ⟨rfl, rfl⟩, .refl c, by simp⟩
  | cons r rest ih =>
    have hblocks : c.view.blocks .userRoles ((assignRoleStmt id r).key c.server.seq)
        ((assignRoleStmt id r).row c.server.seq) = false := by
      unfold Store.blocks
      have hnone : c.view.get .userRoles ((assignRoleStmt id r).key c.server.seq) = none :=
        hfree r List.mem_cons_self
      rw [hnone]
      exact List.any_eq_false.2 fun _ _ h => by cases h
    obtain ⟨c₁, hinsert, hspared₁, hget₁⟩ : ∃ c₁,
        Ends n ((assignRoleStmt id r).exec (dbError .uniqueViolation)) c (id, r) c₁ ∧
          Spared (tables [.userRoles]) c c₁ ∧ ∀ k, c₁.view.get .userRoles k =
            if k = (id, r) then some ⟨c.server.seq⟩ else c.view.get .userRoles k :=
      (assignRoleStmt id r).ends hopen hblocks
    have hopen₁ : c₁.tx.isSome := hspared₁.isOpen.trans hopen
    have huser₁ : (c₁.view.get .users id).isSome := by
      rw [hspared₁.view_get (t := .users) (frozen_tables (by simp))]
      exact huser
    have hrole₁ : ∀ roleId, c₁.view.get .roles roleId = c.view.get .roles roleId :=
      fun roleId => hspared₁.view_get (frozen_tables (by simp)) roleId
    -- its two foreign keys
    obtain ⟨urow, hurow⟩ := Option.isSome_iff_exists.1 huser₁
    obtain ⟨c₂, href₂⟩ : ∃ c₂, Ends n (references Table.users id (fun _ => true)
        (dbError .foreignKeyViolation) : Db Unit) c₁ () c₂ :=
      (ends_references hopen₁).2 ⟨urow, hurow, rfl⟩
    have hsame₂ := references_spared href₂
    obtain ⟨rrow, hrrow⟩ := Option.isSome_iff_exists.1 (hroles r List.mem_cons_self)
    obtain ⟨c₃, href₃⟩ : ∃ c₃, Ends n (references Table.roles r (fun _ => true)
        (dbError .foreignKeyViolation) : Db Unit) c₂ () c₃ := by
      refine (ends_references (hsame₂.isOpen.trans hopen₁)).2 ⟨rrow, ?_, rfl⟩
      rw [hsame₂.view_eq, hrole₁]
      exact hrrow
    have hsame₃ := references_spared href₃
    have hview : c₃.view = c₁.view := hsame₃.view_eq.trans hsame₂.view_eq
    have hassign : Ends n (assignRole id r) c () c₃ :=
      ends_bind.2 ⟨_, _, hinsert, ends_bind.2 ⟨_, _, href₂, href₃⟩⟩
    obtain ⟨c', hrest, hspared', hget'⟩ := ih (List.nodup_cons.1 hnodup).2 (c := c₃)
      (hsame₃.isOpen.trans (hsame₂.isOpen.trans hopen₁)) (by rw [hview]; exact huser₁)
      (fun roleId hmem => by
        rw [hview, hrole₁]
        exact hroles roleId (List.mem_cons_of_mem _ hmem))
      (fun roleId hmem => by
        have hne : (id, roleId) ≠ (id, r) := by
          rintro heq
          cases heq
          exact (List.nodup_cons.1 hnodup).1 hmem
        rw [hview, hget₁, if_neg hne]
        exact hfree roleId (List.mem_cons_of_mem _ hmem))
    have hsame : Spared (tables [.userRoles]) c₁ c₃ :=
      (hsame₂.trans hsame₃).mono fun t _ _ _ _ ht => by cases ht
    refine ⟨c', ends_bind.2 ⟨_, _, hassign, hrest⟩, hspared₁.trans (hsame.trans hspared'),
      fun u roleId => ?_⟩
    rw [hget', hview, hget₁]
    by_cases hkey : (u, roleId) = (id, r)
    · cases hkey
      simp
    · have hiff : (u = id ∧ roleId ∈ r :: rest) ↔ (u = id ∧ roleId ∈ rest) := by
        rw [List.mem_cons]
        constructor
        · rintro ⟨rfl, rfl | hmem⟩
          · exact absurd rfl hkey
          · exact ⟨rfl, hmem⟩
        · exact fun h => ⟨h.1, .inr h.2⟩
      rw [if_neg hkey]
      simp only [hiff]

/-- **`assign_roles`** gives the account exactly these roles. -/
theorem assignRoles_ends {roleIds : List Nat} (hnodup : roleIds.Nodup) (hopen : c.tx.isSome)
    (huser : (c.view.get .users id).isSome)
    (hroles : ∀ roleId ∈ roleIds, (c.view.get .roles roleId).isSome) : ∃ c',
    Ends n (assignRoles id roleIds) c c.snapshot.asOf c' ∧ Spared (tables [.userRoles]) c c' ∧
      ∀ u roleId : Nat, (c'.view.get .userRoles (u, roleId)).isSome =
        if u = id then roleIds.contains roleId else (c.view.get .userRoles (u, roleId)).isSome := by
  obtain ⟨keys, c₁, hclear, hspared₁, hget₁⟩ := clearRoles_ends (n := n) id hopen
  have hframe : ∀ {t : Table}, t ≠ .userRoles → ∀ k, c₁.view.get t k = c.view.get t k :=
    fun ht k => hspared₁.view_get (frozen_tables (by simpa using ht)) k
  obtain ⟨c', hinsert, hspared', hget'⟩ := insertRoles_ends (n := n) hnodup
    (hspared₁.isOpen.trans hopen) (by rw [hframe (by simp)]; exact huser)
    (fun roleId hmem => by
      rw [hframe (by simp)]
      exact hroles roleId hmem)
    (fun roleId _ => by rw [hget₁, if_pos rfl])
  obtain ⟨s, d, hs, hvisit⟩ := ends_bind.1 hclear
  obtain ⟨rfl, rfl⟩ := ends_query.1 hs
  refine ⟨c', ends_bind.2 ⟨_, _, ends_query.2 ⟨rfl, rfl⟩, ends_bind.2 ⟨_, _, hvisit,
    ends_bind.2 ⟨_, _, hinsert, ends_ret.2 ⟨rfl, rfl⟩⟩⟩⟩, hspared₁.trans hspared',
      fun u roleId => ?_⟩
  rw [hget', hget₁]
  by_cases hu : u = id
  · simp [hu]
  · simp [hu]

end Repositories.Users

variable (id) in
/-- **`revoke_all_for_user`**. -/
theorem Repositories.AuthSessions.revokeAllForUser_ends (hopen : c.tx.isSome) : ∃ revoked c',
    Ends n (revokeAllForUser id) c revoked c' ∧ Spared (tables [.authSessions]) c c' ∧
      ∀ k, (c'.view.get .authSessions k).map SessionRow.untimed =
        (c.view.get .authSessions k).map fun row : SessionRow =>
          if row.userId = id then AccountEffect.deletion.session row.untimed else row.untimed := by
  obtain ⟨c', hexec, hspared, hget⟩ :=
    (revokeAllForUserStmt id).ends (ε := ApiError) (p := n) hopen
  obtain ⟨s, d, hs, hrows⟩ := ends_bind.1 hexec
  obtain ⟨rfl, rfl⟩ := ends_query.1 hs
  refine ⟨_, c', ends_bind.2 ⟨_, _, ends_query.2 ⟨rfl, rfl⟩, ends_bind.2 ⟨_, _, hrows,
    ends_ret.2 ⟨rfl, rfl⟩⟩⟩, hspared, fun k => ?_⟩
  rw [hget k, Option.map_map]
  congr 1
  funext row
  by_cases huser : row.userId = id
  · cases hrevoked : row.revokedAt <;>
      simp [revokeAllForUserStmt, revokeStmt, SessionRow.untimed, AccountEffect.deletion, huser,
        hrevoked]
  · simp [revokeAllForUserStmt, revokeStmt, huser]

end Statements

/-! ## One step

When a deletion or an assignment of one account succeeds, and that its effect is the one above.
-/

/-- What comes after the effect of a step writes audit records only. -/
theorem handled_of_spared {e : AccountEffect} {ids : List Nat} {σ : Store Table} {c c' : Conn Table}
    (h : Handled e ids σ c.view) (hspared : Spared (tables [.auditLogs]) c c') :
    Handled e ids σ c'.view where
  users u := by
    rw [hspared.view_get (t := .users) (frozen_tables (by simp))]
    exact h.users u
  roles u roleId := by
    rw [hspared.view_get (t := .userRoles) (frozen_tables (by simp))]
    exact h.roles u roleId
  sessions k := by
    rw [hspared.view_get (t := .authSessions) (frozen_tables (by simp))]
    exact h.sessions k
  tables t ht := (hspared.table t (frozen_tables fun hm => ht (by simp_all))).trans (h.tables t ht)

namespace Services.Users

section Steps

variable {n : Nat} {c c' : Conn Table} {id actorUserId : Nat}

/-- A record that is written only sometimes. -/
theorem ready_whenever (h : Ready c actorUserId) (b : Bool) (action targetType : String)
    (targetId : Option Nat) (details : List (String × Detail)) : ∃ c',
    Ends n (Prog.whenever b (Repositories.AuditLogs.record (some actorUserId) action targetType
      targetId details)) c () c' ∧ Spared (tables [.auditLogs]) c c' ∧ Ready c' actorUserId := by
  cases b with
  | false => exact ⟨c, ends_whenever.2 (.inr ⟨rfl, rfl⟩), .refl c, h⟩
  | true =>
    obtain ⟨c', hends, hspared, hready⟩ := h.record (n := n) action targetType targetId details
    exact ⟨c', ends_whenever.2 (.inl ⟨rfl, hends⟩), hspared, hready⟩

variable (id) in
/-- The guard of the last super administrator locks a role, and changes nothing. -/
theorem ready_protect (h : Ready c actorUserId) : ∃ c₁, c₁.view = c.view ∧ Ready c₁ actorUserId ∧
    ∀ c', Ends n (protectLastSuperAdmin id) c () c' ↔
      Spares (guardedHolders c.snapshot) id ∧ c' = c₁ := by
  obtain ⟨c₁, ⟨_, hstate⟩, hsame, hiff⟩ := protectLastSuperAdmin_ends (n := n) id h.isOpen
  exact ⟨c₁, hsame.view_eq, h.of_spared hstate hsame (by simp), hiff⟩

/-- A live account that the guard lets pass is deleted. -/
theorem deleteOne_succeeds (h : Ready c actorUserId) (hlive : Live c.view id)
    (hspares : Spares (guardedHolders c.snapshot) id) : ∃ c',
    Ends n (deleteOne id (some actorUserId)) c () c' ∧ Ready c' actorUserId ∧
      Handled .deletion [id] c.view c'.view := by
  obtain ⟨row, hrow, hnone⟩ := hlive
  obtain ⟨c₁, hview₁, hready₁, hguard⟩ := ready_protect (n := n) id h
  have hprotect : Ends n (protectLastSuperAdmin id) c () c₁ := (hguard c₁).2 ⟨hspares, rfl⟩
  obtain ⟨c₂, hdelete, hspared₂, husers₂, hroles₂⟩ :=
    Repositories.Users.softDelete_ends (n := n) hready₁.isOpen (by rw [hview₁]; exact hrow) hnone
  have hopen₂ : c₂.tx.isSome := hspared₂.isOpen.trans hready₁.isOpen
  obtain ⟨revoked, c₃, hrevoke, hspared₃, hsessions₃⟩ :=
    Repositories.AuthSessions.revokeAllForUser_ends (n := n) id hopen₂
  -- the account, its roles and its sessions
  have hhandled : Handled .deletion [id] c.view c₃.view := by
    constructor
    · intro u
      rw [hspared₃.view_get (t := .users) (frozen_tables (by simp)), husers₂ u, hview₁]
      by_cases hu : u = id
      · rw [hu, if_pos rfl, hrow]
        simp [Repositories.Users.softDeleteStmt, AccountEffect.deletion, UserRow.untimed]
      · simp [hu]
    · intro u roleId
      rw [hspared₃.view_get (t := .userRoles) (frozen_tables (by simp)), hroles₂, hview₁]
      by_cases hu : u = id
      · simp [hu, AccountEffect.deletion]
      · simp [hu]
    · intro k
      rw [hsessions₃ k, hspared₂.view_get (t := .authSessions) (frozen_tables (by simp)), hview₁]
      simp
    · intro t ht
      rw [hspared₃.table t (frozen_tables fun hm => ht (by simp_all)),
        hspared₂.table t (frozen_tables fun hm => ht (by simp_all)), hview₁]
  have hready₃ : Ready c₃ actorUserId := by
    refine h.of_handled (hspared₃.isOpen.trans hopen₂) ?_ hhandled
    exact hrevoke.wf (hdelete.wf hready₁.wf)
  -- the audit records
  obtain ⟨c₄, hrecord₄, hspared₄, hready₄⟩ := ready_whenever (n := n) hready₃
    (revoked.count != 0) "auth.session.revoked" "user" (some id)
    [("reason", .text "account_deleted"), ("revokedSessionCount", .number revoked.count)]
  obtain ⟨c₅, hrecord₅, hspared₅, hready₅⟩ := hready₄.record (n := n) "user.delete" "user" (some id)
    [("previousRoleIds", .numbers (Repositories.Users.rolesOf (committed c₁.server) id))]
  refine ⟨c₅, ?_, hready₅, handled_of_spared hhandled (hspared₄.trans hspared₅)⟩
  have hread : Ends n (Repositories.Users.roleIdsByUser id) c₁
      (Repositories.Users.rolesOf (committed c₁.server) id) c₁ :=
    ends_bind.2 ⟨_, _, ends_poolQuery.2 ⟨rfl, rfl⟩, ends_ret.2 ⟨rfl, rfl⟩⟩
  refine ends_bind.2 ⟨_, _, hprotect, ends_bind.2 ⟨_, _, hread, ends_bind.2 ⟨_, _, hdelete, ?_⟩⟩⟩
  exact ends_bind.2 ⟨(), _, ends_reject.2 ⟨rfl, rfl⟩, ends_bind.2 ⟨_, _, hrevoke,
    ends_bind.2 ⟨_, _, hrecord₄, hrecord₅⟩⟩⟩

/-- What a deletion that has succeeded has checked. -/
theorem deleteOne_needs (h : Ready c actorUserId)
    (hends : Ends n (deleteOne id (some actorUserId)) c () c') :
    Live c.view id ∧ Spares (guardedHolders c.snapshot) id := by
  obtain ⟨_, d₁, hprotect, hrest₁⟩ := ends_bind.1 hends
  obtain ⟨c₁, hview₁, hready₁, hguard⟩ := ready_protect (n := n) id h
  obtain ⟨hspares, rfl⟩ := (hguard d₁).1 hprotect
  obtain ⟨_, d₂, hread, hrest₂⟩ := ends_bind.1 hrest₁
  obtain ⟨_, d₃, hs, hret⟩ := ends_bind.1 hread
  obtain ⟨_, rfl⟩ := ends_poolQuery.1 hs
  obtain ⟨_, rfl⟩ := ends_ret.1 hret
  obtain ⟨deleted, d₄, hdelete, hrest₃⟩ := ends_bind.1 hrest₂
  obtain ⟨_, d₅, hreject, _⟩ := ends_bind.1 hrest₃
  have htrue : deleted = true := by simpa using (ends_reject.1 hreject).1
  rw [htrue] at hdelete
  have hlive := Repositories.Users.live_of_softDelete hready₁.isOpen hdelete
  rw [hview₁] at hlive
  exact ⟨hlive, hspares⟩

variable (id) in
/-- **One deletion** succeeds for a live account that is not the last super administrator. -/
theorem deleteOne_ends (h : Ready c actorUserId) :
    ((∃ c', Ends n (deleteOne id (some actorUserId)) c () c') ↔
      Live c.view id ∧ Spares (guardedHolders c.snapshot) id) ∧
    ∀ c', Ends n (deleteOne id (some actorUserId)) c () c' →
      Ready c' actorUserId ∧ Handled .deletion [id] c.view c'.view := by
  constructor
  · constructor
    · rintro ⟨c', hends⟩
      exact deleteOne_needs h hends
    · rintro ⟨hlive, hspares⟩
      obtain ⟨c', hends, _⟩ := deleteOne_succeeds (n := n) h hlive hspares
      exact ⟨c', hends⟩
  · intro c' hends
    obtain ⟨hlive, hspares⟩ := deleteOne_needs h hends
    obtain ⟨c₁, hends₁, heffect⟩ := deleteOne_succeeds (n := n) h hlive hspares
    obtain ⟨_, rfl⟩ := hends₁.iff.1 hends
    exact heffect

/-- An assignment that the guard lets pass succeeds. -/
theorem replaceRoles_succeeds {superAdminRoleId : Option Nat} {roleIds previousRoleIds : List Nat}
    (h : Ready c actorUserId) (huser : (c.view.get .users id).isSome) (hnodup : roleIds.Nodup)
    (hroles : ∀ roleId ∈ roleIds, (c.view.get .roles roleId).isSome)
    (hspares : superAdminRoleId.any roleIds.contains = false →
      Spares (guardedHolders c.snapshot) id) : ∃ c',
    Ends n (replaceRoles superAdminRoleId (some actorUserId) id roleIds previousRoleIds) c () c' ∧
      Ready c' actorUserId ∧ Handled (.assignment roleIds) [id] c.view c'.view := by
  obtain ⟨c₁, hprotect, hview₁, hready₁⟩ : ∃ c₁,
      Ends n (Prog.whenever (!superAdminRoleId.any roleIds.contains) (protectLastSuperAdmin id)) c ()
        c₁ ∧ c₁.view = c.view ∧ Ready c₁ actorUserId := by
    cases hany : superAdminRoleId.any roleIds.contains with
    | true => exact ⟨c, ends_whenever.2 (.inr ⟨rfl, rfl⟩), rfl, h⟩
    | false =>
      obtain ⟨c₁, hview₁, hready₁, hguard⟩ := ready_protect (n := n) id h
      exact ⟨c₁, ends_whenever.2 (.inl ⟨rfl, (hguard c₁).2 ⟨hspares hany, rfl⟩⟩), hview₁, hready₁⟩
  obtain ⟨c₂, hassign, hspared₂, hroles₂⟩ := Repositories.Users.assignRoles_ends (n := n)
    hnodup hready₁.isOpen (by rw [hview₁]; exact huser) (by rw [hview₁]; exact hroles)
  have hready₂ : Ready c₂ actorUserId := hready₁.of_spared hassign hspared₂ (by simp)
  have hnote : Ends n (noteEvent (.rolesReplaced id c₁.snapshot.asOf) : Db Unit) c₂ ()
      (c₂.noted (.rolesReplaced id c₁.snapshot.asOf)) := ends_noteEvent.2 rfl
  have hhandled : Handled (.assignment roleIds) [id] c.view c₂.view := by
    constructor
    · intro u
      rw [hspared₂.view_get (t := .users) (frozen_tables (by simp)), hview₁]
      simp [AccountEffect.assignment]
    · intro u roleId
      rw [hroles₂, hview₁]
      simp [AccountEffect.assignment]
    · intro k
      rw [hspared₂.view_get (t := .authSessions) (frozen_tables (by simp)), hview₁]
      simp [AccountEffect.assignment]
    · intro t ht
      rw [hspared₂.table t (frozen_tables fun hm => ht (by simp_all)), hview₁]
  -- the audit records
  obtain ⟨c₃, hrecord₃, hspared₃, hready₃⟩ : ∃ c₃,
      Ends n (Prog.ifSome superAdminRoleId fun superAdminRoleId =>
        Prog.whenever (previousRoleIds.contains superAdminRoleId != roleIds.contains superAdminRoleId)
          (Repositories.AuditLogs.record (some actorUserId) "auth.mfa.policy.changed" "user" (some id)
            [("required", .bool (roleIds.contains superAdminRoleId))]))
          (c₂.noted (.rolesReplaced id c₁.snapshot.asOf)) () c₃ ∧
        Spared (tables [.auditLogs]) c₂ c₃ ∧ Ready c₃ actorUserId := by
    have hspared := Spared.noted (φ := tables [.auditLogs]) c₂
      (.rolesReplaced id c₁.snapshot.asOf : Event)
    have hnoted := hready₂.of_spared hnote hspared (by simp)
    cases superAdminRoleId with
    | none => exact ⟨_, ends_ifSome.2 (.inr ⟨rfl, rfl⟩), hspared, hnoted⟩
    | some roleId =>
      obtain ⟨c₃, hends, hspared₃, hready⟩ := ready_whenever (n := n) hnoted
        (previousRoleIds.contains roleId != roleIds.contains roleId) "auth.mfa.policy.changed" "user"
        (some id) [("required", .bool (roleIds.contains roleId))]
      exact ⟨c₃, ends_ifSome.2 (.inl ⟨roleId, rfl, hends⟩), hspared.trans hspared₃, hready⟩
  obtain ⟨c₄, hrecord₄, hspared₄, hready₄⟩ := hready₃.record (n := n) "user.roles.update" "user"
    (some id) [("previousRoleIds", .numbers previousRoleIds), ("roleIds", .numbers roleIds)]
  refine ⟨c₄, ?_, hready₄, handled_of_spared hhandled (hspared₃.trans hspared₄)⟩
  exact ends_bind.2 ⟨_, _, hprotect, ends_bind.2 ⟨_, _, hassign,
    ends_bind.2 ⟨_, _, hnote, ends_bind.2 ⟨_, _, hrecord₃, hrecord₄⟩⟩⟩⟩

/-- **One assignment** of roles that exist succeeds if the role of the last super administrator is
kept or the account is not the last one. -/
theorem replaceRoles_ends (superAdminRoleId : Option Nat) (roleIds previousRoleIds : List Nat)
    (h : Ready c actorUserId) (huser : (c.view.get .users id).isSome) (hnodup : roleIds.Nodup)
    (hroles : ∀ roleId ∈ roleIds, (c.view.get .roles roleId).isSome) :
    ((∃ c', Ends n (replaceRoles superAdminRoleId (some actorUserId) id roleIds previousRoleIds) c ()
        c') ↔ (superAdminRoleId.any roleIds.contains = false →
          Spares (guardedHolders c.snapshot) id)) ∧
    ∀ c', Ends n (replaceRoles superAdminRoleId (some actorUserId) id roleIds previousRoleIds) c () c' →
      Ready c' actorUserId ∧ Handled (.assignment roleIds) [id] c.view c'.view := by
  have hneeds : ∀ c', Ends n
      (replaceRoles superAdminRoleId (some actorUserId) id roleIds previousRoleIds) c () c' →
        superAdminRoleId.any roleIds.contains = false → Spares (guardedHolders c.snapshot) id := by
    intro c' hends hany
    obtain ⟨_, d, hprotect, _⟩ := ends_bind.1 hends
    obtain ⟨c₁, _, _, hguard⟩ := ready_protect (n := n) id h
    rcases ends_whenever.1 hprotect with ⟨_, hprotect⟩ | ⟨hfalse, _⟩
    · exact ((hguard d).1 hprotect).1
    · rw [hany] at hfalse
      cases hfalse
  have hsucceeds : (superAdminRoleId.any roleIds.contains = false →
      Spares (guardedHolders c.snapshot) id) → ∃ c',
        Ends n (replaceRoles superAdminRoleId (some actorUserId) id roleIds previousRoleIds) c () c' ∧
          Ready c' actorUserId ∧ Handled (.assignment roleIds) [id] c.view c'.view :=
    replaceRoles_succeeds h huser hnodup hroles
  constructor
  · constructor
    · rintro ⟨c', hends⟩
      exact hneeds c' hends
    · intro hspares
      obtain ⟨c', hends, _⟩ := hsucceeds hspares
      exact ⟨c', hends⟩
  · intro c' hends
    obtain ⟨c₁, hends₁, heffect⟩ := hsucceeds (hneeds c' hends)
    obtain ⟨_, rfl⟩ := hends₁.iff.1 hends
    exact heffect

end Steps

end Services.Users

/-! ## What a step checks first

The checks of a step read what the steps before it have left alone, so in a batch they may all
come first.
-/

/-- **The account is one that the actor may see.** -/
def Sees (s : Snap) (actor : ActorContext) (id : Nat) : Prop :=
  ∃ row : UserRow, s.store.get .users id = some row ∧ row.deletedAt = none ∧
    Repositories.Users.isVisible s actor id row = true

/-- **The roles may be handed out** by the actor, as `validate_role_grant_scope` has it. -/
structure Grants (s : Snap) (actorUserId : Nat) (roleIds : List Nat) (canGrantSuperAdmin : Bool) :
    Prop where
  distinct : roleIds.dedup.length = roleIds.length
  active : (Repositories.Roles.activeAmong s roleIds).length = roleIds.dedup.length
  superAdmin : (!canGrantSuperAdmin && (Repositories.Roles.activeByCode s "super_admin").any
    roleIds.contains) = false
  held : ((Repositories.Permissions.codesOfRoles s roleIds).any fun permission =>
    !(Repositories.Permissions.codesOfUser s actorUserId).contains permission) = false

section Checks

variable {n : Nat} {c c' : Conn Table} {s s' : Snap} {actor : ActorContext} {id actorUserId : Nat}
  {roleIds ids : List Nat} {canGrantSuperAdmin : Bool} {e : AccountEffect}

theorem Services.Users.ends_ensureActorCanAccess :
    Ends n (ensureActorCanAccess (some actor) id) c () c' ↔
      c' = c ∧ Sees (committed c.server) actor id := by
  constructor
  · exact ensureActorCanAccess_ends
  · rintro ⟨rfl, row, hrow, hlive, hvisible⟩
    have hfound : (Repositories.Users.byId (committed c'.server) id).filter
        (fun found => Repositories.Users.isVisible (committed c'.server) actor id found.row) =
          some ⟨id, row, (committed c'.server).asOf⟩ := by
      have hbyId : Repositories.Users.byId (committed c'.server) id =
          some ⟨id, row, (committed c'.server).asOf⟩ := by
        have hfilter : ((committed c'.server).store.get .users id).filter
            (fun row : UserRow => row.deletedAt.isNone) = some row :=
          Option.filter_eq_some_iff.2 ⟨hrow, by simp [hlive]⟩
        unfold Repositories.Users.byId
        rw [hfilter]
        rfl
      rw [hbyId]
      exact Option.filter_eq_some_iff.2 ⟨rfl, hvisible⟩
    have hfind : Ends n (Repositories.Users.findByIdForActor actor id) c'
        (some ⟨id, row, (committed c'.server).asOf⟩) c' :=
      ends_bind.2 ⟨_, _, ends_poolQuery.2 ⟨rfl, rfl⟩, ends_ret.2 ⟨hfound.symm, rfl⟩⟩
    exact ends_bind.2 ⟨_, _, hfind, ends_reject.2 ⟨rfl, rfl⟩⟩

theorem Services.Users.ends_validateRoleGrantScope :
    Ends n (validateRoleGrantScope (some actorUserId) roleIds canGrantSuperAdmin) c () c' ↔
      c' = c ∧ Grants (committed c.server) actorUserId roleIds canGrantSuperAdmin := by
  constructor
  · intro h
    obtain ⟨_, c₁, hreject₁, hrest₁⟩ := ends_bind.1 h
    obtain ⟨hdistinct, rfl⟩ := ends_reject.1 hreject₁
    -- the roles that are active
    obtain ⟨active, c₂, hquery, hrest₂⟩ := ends_bind.1 hrest₁
    obtain ⟨_, c₃, hs, hret⟩ := ends_bind.1 hquery
    obtain ⟨rfl, rfl⟩ := ends_poolQuery.1 hs
    obtain ⟨rfl, rfl⟩ := ends_ret.1 hret
    obtain ⟨_, c₄, hreject₂, hrest₃⟩ := ends_bind.1 hrest₂
    obtain ⟨hactive, rfl⟩ := ends_reject.1 hreject₂
    -- the role `super_admin`, which only some may grant
    obtain ⟨superAdmin, c₅, hquery, hrest₄⟩ := ends_bind.1 hrest₃
    obtain ⟨_, c₆, hs, hret⟩ := ends_bind.1 hquery
    obtain ⟨rfl, rfl⟩ := ends_poolQuery.1 hs
    obtain ⟨rfl, rfl⟩ := ends_ret.1 hret
    obtain ⟨_, c₇, hreject₃, hrest₅⟩ := ends_bind.1 hrest₄
    obtain ⟨hsuper, rfl⟩ := ends_reject.1 hreject₃
    -- what the actor holds, and what the roles would give
    obtain ⟨permissions, c₈, hquery, hrest₆⟩ := ends_bind.1 hrest₅
    obtain ⟨_, c₉, hs, hret⟩ := ends_bind.1 hquery
    obtain ⟨rfl, rfl⟩ := ends_poolQuery.1 hs
    obtain ⟨rfl, rfl⟩ := ends_ret.1 hret
    obtain ⟨requested, c₁₀, hquery, hreject₄⟩ := ends_bind.1 hrest₆
    obtain ⟨_, c₁₁, hs, hret⟩ := ends_bind.1 hquery
    obtain ⟨rfl, rfl⟩ := ends_poolQuery.1 hs
    obtain ⟨rfl, rfl⟩ := ends_ret.1 hret
    obtain ⟨hheld, rfl⟩ := ends_reject.1 hreject₄
    exact ⟨rfl, bne_eq_false_iff_eq.1 hdistinct, bne_eq_false_iff_eq.1 hactive, hsuper, hheld⟩
  · rintro ⟨rfl, hdistinct, hactive, hsuper, hheld⟩
    -- each of the four queries reads what is committed, and changes nothing
    have hread : ∀ {α : Type} (f : Snap → α), Ends n (do
        let s ← poolQuery
        return f s : Db α) c' (f (committed c'.server)) c' := fun f =>
      ends_bind.2 ⟨_, _, ends_poolQuery.2 ⟨rfl, rfl⟩, ends_ret.2 ⟨rfl, rfl⟩⟩
    refine ends_bind.2 ⟨(), c', ends_reject.2 ⟨by simpa using hdistinct, rfl⟩, ?_⟩
    refine ends_bind.2 ⟨_, c', hread fun s => Repositories.Roles.activeAmong s roleIds, ?_⟩
    refine ends_bind.2 ⟨(), c', ends_reject.2 ⟨by simpa using hactive, rfl⟩, ?_⟩
    refine ends_bind.2 ⟨_, c', hread fun s => Repositories.Roles.activeByCode s "super_admin", ?_⟩
    refine ends_bind.2 ⟨(), c', ends_reject.2 ⟨hsuper, rfl⟩, ?_⟩
    refine ends_bind.2 ⟨_, c', hread fun s =>
      Repositories.Permissions.codesOfUser s actorUserId, ?_⟩
    refine ends_bind.2 ⟨_, c', hread fun s => Repositories.Permissions.codesOfRoles s roleIds, ?_⟩
    exact ends_reject.2 ⟨hheld, rfl⟩

/-- What an actor sees of an account depends on its row without timestamps and on the departments. -/
theorem isVisible_untimed {row row' : UserRow} (hdept : s'.store .departments = s.store .departments)
    (hrow : row'.untimed = row.untimed) : Repositories.Users.isVisible s' actor id row' =
      Repositories.Users.isVisible s actor id row := by
  have horg : row'.untimed.organizationId = row.untimed.organizationId := by rw [hrow]
  have hd : row'.untimed.departmentId = row.untimed.departmentId := by rw [hrow]
  rw [UserRow.untimed_organizationId, UserRow.untimed_organizationId] at horg
  rw [UserRow.untimed_departmentId, UserRow.untimed_departmentId] at hd
  have hsame : Repositories.Departments.SameDepartments actor.organizationId s' s := by
    intro i row _
    unfold Store.get
    rw [hdept]
  unfold Repositories.Users.isVisible
  rw [horg, hd, Repositories.Departments.visibleDepartments_contains_congr hsame]

/-- **An account is seen as before** when others have been handled. -/
theorem Handled.sees (h : Handled e ids s.store s'.store) (hid : id ∉ ids) :
    Sees s' actor id ↔ Sees s actor id := by
  have husers := h.user_of_not_mem hid
  have hdept : s'.store .departments = s.store .departments := h.tables _ (by simp)
  constructor
  · rintro ⟨row', hrow', hlive, hvisible⟩
    rw [hrow', Option.map_some] at husers
    obtain ⟨row, hrow, heq⟩ := Option.map_eq_some_iff.1 husers.symm
    refine ⟨row, hrow, ?_, ?_⟩
    · rw [← UserRow.untimed_deletedAt, heq, UserRow.untimed_deletedAt]
      exact hlive
    · rw [← isVisible_untimed hdept heq.symm]
      exact hvisible
  · rintro ⟨row, hrow, hlive, hvisible⟩
    rw [hrow, Option.map_some] at husers
    obtain ⟨row', hrow', heq⟩ := Option.map_eq_some_iff.1 husers
    refine ⟨row', hrow', ?_, ?_⟩
    · rw [← UserRow.untimed_deletedAt, heq, UserRow.untimed_deletedAt]
      exact hlive
    · rw [isVisible_untimed hdept heq]
      exact hvisible

theorem Handled.sees_other {s s' : Server Table} {i : Nat} {ids : List Nat}
    (h : Handled e [id] s.store s'.store) (hid : id ∉ ids) (hi : i ∈ ids) :
    Sees (committed s') actor i ↔ Sees (committed s) actor i := by
  have hnot : i ∉ [id] := by
    rw [List.mem_singleton]
    rintro rfl
    exact hid hi
  exact Handled.sees (s := committed s) h hnot

/-- What an actor sees is a matter of the tables. -/
theorem sees_same (hstore : s'.store = s.store) : Sees s' actor id ↔ Sees s actor id := by
  have hhandled : Handled .deletion [] s.store s'.store := by
    rw [hstore]
    exact .nil _ _
  exact hhandled.sees (by simp)

/-- An account is as live as before when others have been handled. -/
theorem Handled.live {σ σ' : Store Table} (h : Handled e ids σ σ') (hid : id ∉ ids)
    (hlive : Live σ id) : Live σ' id := by
  obtain ⟨row, hrow, hnone⟩ := hlive
  have husers := h.user_of_not_mem hid
  rw [hrow, Option.map_some] at husers
  obtain ⟨row', hrow', heq⟩ := Option.map_eq_some_iff.1 husers
  refine ⟨row', hrow', ?_⟩
  rw [← UserRow.untimed_deletedAt, heq, UserRow.untimed_deletedAt]
  exact hnone

theorem Handled.activeByCode (h : Handled e ids s.store s'.store) (code : String) :
    Repositories.Roles.activeByCode s' code = Repositories.Roles.activeByCode s code := by
  unfold Repositories.Roles.activeByCode Store.rows
  rw [h.tables .roles (by simp)]

/-- **What the actor may hand out** is the same when others have been handled. -/
theorem Handled.grants (h : Handled e ids s.store s'.store) (hactor : actorUserId ∉ ids)
    (hgrants : Grants s actorUserId roleIds canGrantSuperAdmin) :
    Grants s' actorUserId roleIds canGrantSuperAdmin := by
  have hroles : s'.store.rows .roles = s.store.rows .roles := by
    unfold Store.rows
    rw [h.tables .roles (by simp)]
  have hcodes : ∀ roleIds, Repositories.Permissions.codesOfRoles s' roleIds =
      Repositories.Permissions.codesOfRoles s roleIds := by
    intro roleIds
    unfold Repositories.Permissions.codesOfRoles Repositories.Permissions.codeOf Store.rows Store.get
    rw [h.tables .rolePermissions (by simp), h.tables .permissions (by simp)]
  have hactive : Repositories.Users.isActive s' actorUserId =
      Repositories.Users.isActive s actorUserId := by
    rw [Bool.eq_iff_iff, isActive_iff, isActive_iff, ← isActiveRow_untimed,
      h.user_of_not_mem hactor, isActiveRow_untimed]
  have hheld : Repositories.Permissions.codesOfUser s' actorUserId =
      Repositories.Permissions.codesOfUser s actorUserId := by
    have hrolesOf : Repositories.Permissions.activeRolesOf s' actorUserId =
        Repositories.Permissions.activeRolesOf s actorUserId := by
      unfold Repositories.Permissions.activeRolesOf
      rw [hroles]
      refine List.filter_congr fun e _ => ?_
      rw [h.roles actorUserId e.1, if_neg hactor]
    unfold Repositories.Permissions.codesOfUser
    rw [hactive, hrolesOf, hcodes]
  constructor
  · exact hgrants.distinct
  · have hsame : Repositories.Roles.activeAmong s' roleIds =
        Repositories.Roles.activeAmong s roleIds := by
      unfold Repositories.Roles.activeAmong
      rw [hroles]
    rw [hsame]
    exact hgrants.active
  · rw [h.activeByCode]
    exact hgrants.superAdmin
  · rw [hheld, hcodes]
    exact hgrants.held

/-- A list that is as long as a set has no repetitions. -/
theorem nodup_of_length (h : ids.dedup.length = ids.length) : ids.Nodup := by
  rw [← (List.dedup_sublist ids).eq_of_length h]
  exact List.nodup_dedup ids

theorem Grants.nodup (h : Grants s actorUserId roleIds canGrantSuperAdmin) : roleIds.Nodup :=
  nodup_of_length h.distinct

/-- Every role that is handed out exists and is active. -/
theorem Grants.role (h : Grants s actorUserId roleIds canGrantSuperAdmin) {roleId : Nat}
    (hmem : roleId ∈ roleIds) :
    ∃ row : RoleRow, s.store.get .roles roleId = some row ∧ row.isActive = true := by
  have hnodup : (Repositories.Roles.activeAmong s roleIds).Nodup :=
    (List.filter_sublist.map Prod.fst).nodup (Store.rows_keys_nodup s.store .roles)
  have hsub : ∀ i ∈ Repositories.Roles.activeAmong s roleIds, i ∈ roleIds.dedup ∧
      ∃ row : RoleRow, s.store.get .roles i = some row ∧ row.isActive = true := by
    intro i hi
    obtain ⟨e, he, rfl⟩ := List.mem_map.1 hi
    obtain ⟨hrow, hsat⟩ := List.mem_filter.1 he
    obtain ⟨hin, hactive⟩ := Bool.and_eq_true_iff.1 hsat
    exact ⟨List.mem_dedup.2 (List.contains_iff_mem.1 hin), e.2, Store.mem_rows.1 hrow, hactive⟩
  -- as many active roles among them as there are
  have hperm : (Repositories.Roles.activeAmong s roleIds).Perm roleIds.dedup :=
    (List.subperm_of_subset hnodup fun i hi => (hsub i hi).1).perm_of_length_le h.active.ge
  exact (hsub roleId (hperm.mem_iff.2 (List.mem_dedup.2 hmem))).2

/-- **The guarded role is not handed out** where the guard is called. -/
theorem Grants.guarded (h : Grants s actorUserId roleIds canGrantSuperAdmin) {roleId : Nat}
    (hguard : (Repositories.Roles.activeByCode s "super_admin").any roleIds.contains = false)
    (hrole : superAdminRole s = some roleId) : roleIds.contains roleId = false := by
  by_contra hcontains
  have hmem : roleId ∈ roleIds := List.contains_iff_mem.1 (by simpa using hcontains)
  obtain ⟨row, hrow, hactive⟩ := h.role hmem
  obtain ⟨e, hhead, rfl⟩ := Option.map_eq_some_iff.1 hrole
  have hfirst : (s.store.rows .roles).find? (fun e => e.2.code == "super_admin") = some e := by
    rw [← List.head?_filter]
    exact hhead
  have hget : s.store.get .roles e.1 = some e.2 :=
    Store.mem_rows.1 (List.mem_of_find?_eq_some hfirst)
  rw [hget] at hrow
  cases hrow
  -- the first role with the code is active, so it is also the first active one
  have hfound : (s.store.rows .roles).find? (fun e => e.2.code == "super_admin" && e.2.isActive) =
      some e := by
    obtain ⟨hsat, before, after, heq, hbefore⟩ := List.find?_eq_some_iff_append.1 hfirst
    refine List.find?_eq_some_iff_append.2 ⟨by simp [hsat, hactive], before, after, heq, ?_⟩
    intro f hf
    have hnot := hbefore f hf
    simp_all
  have hcode : Repositories.Roles.activeByCode s "super_admin" = some e.1 := by
    unfold Repositories.Roles.activeByCode
    rw [hfound]
    rfl
  rw [hcode, Option.any_some] at hguard
  exact hcontains hguard

end Checks

/-! ## The steps of a batch

What a step needs of the state, and that the steps before it leave it so. The induction is on the
list of accounts.
-/

/-- **An operation on accounts**: its step inside a transaction, with the effect of the step, what
the state has to admit, and whether the guard of the last super administrator is called. -/
structure Operation (actorUserId : Nat) where
  effect : AccountEffect
  guarded : Bool
  admits : Snap → Prop
  step : Nat → Db Unit
  admits_kept : ∀ {s s' : Snap} {ids : List Nat}, Handled effect ids s.store s'.store →
    actorUserId ∉ ids → admits s → admits s'
  role_lost : ∀ {s : Snap} {roleId : Nat}, admits s → guarded = true →
    superAdminRole s = some roleId → effect.role roleId = false
  step_ends : ∀ {n : Nat} {c : Conn Table} {id : Nat}, Ready c actorUserId → admits c.snapshot →
    Live c.view id →
      ((∃ c', Ends n (step id) c () c') ↔
        (guarded = true → Spares (guardedHolders c.snapshot) id)) ∧
      ∀ c', Ends n (step id) c () c' → Ready c' actorUserId ∧ Handled effect [id] c.view c'.view

namespace Operation

section Transaction

variable {actorUserId : Nat} (o : Operation actorUserId) {n : Nat} {c c' : Conn Table}
  {ids : List Nat}

/-- What the steps so far leave for the next ones. -/
theorem next {s s' : Snap} (hadmits : o.admits s) (h : Handled o.effect ids s.store s'.store) :
    o.guarded = true → guardedHolders s' = guardedHolders s \ ids.toFinset :=
  fun hg => h.guardedHolders fun _ => o.role_lost hadmits hg

theorem next_one {s s' : Snap} {id : Nat} (hadmits : o.admits s)
    (h : Handled o.effect [id] s.store s'.store) :
    o.guarded = true → guardedHolders s' = (guardedHolders s).erase id := by
  intro hg
  rw [o.next hadmits h hg]
  simp [Finset.sdiff_singleton_eq_erase]

/-- **The steps of a batch succeed** if the guard lets the accounts pass, one after the other. -/
theorem forEach_ends (hready : Ready c actorUserId) (hadmits : o.admits c.snapshot)
    (hlive : ∀ id ∈ ids, Live c.view id) (hnodup : ids.Nodup) (hactor : actorUserId ∉ ids) :
    ((∃ c', Ends n (Prog.forEach ids o.step) c () c') ↔
      (o.guarded = true → Drains (guardedHolders c.snapshot) ids)) ∧
    ∀ c', Ends n (Prog.forEach ids o.step) c () c' →
      Ready c' actorUserId ∧ Handled o.effect ids c.view c'.view := by
  induction ids generalizing c with
  | nil =>
    refine ⟨⟨fun _ _ => trivial, fun _ => ⟨c, ends_ret.2 ⟨rfl, rfl⟩⟩⟩, fun c' hends => ?_⟩
    obtain ⟨_, rfl⟩ := ends_ret.1 hends
    exact ⟨hready, .nil _ _⟩
  | cons id rest ih =>
    obtain ⟨hid, hrest⟩ := List.nodup_cons.1 hnodup
    obtain ⟨hne, hactor'⟩ : actorUserId ≠ id ∧ actorUserId ∉ rest := by simpa using hactor
    obtain ⟨hstep, heffect⟩ := o.step_ends (n := n) hready hadmits (hlive id List.mem_cons_self)
    -- the other accounts, after the first step
    have htail : ∀ c₁, Ends n (o.step id) c () c₁ → Handled o.effect [id] c.view c₁.view ∧
        ((∃ c', Ends n (Prog.forEach rest o.step) c₁ () c') ↔
          (o.guarded = true → Drains ((guardedHolders c.snapshot).erase id) rest)) ∧
        ∀ c', Ends n (Prog.forEach rest o.step) c₁ () c' →
          Ready c' actorUserId ∧ Handled o.effect rest c₁.view c'.view := by
      intro c₁ hends₁
      obtain ⟨hready₁, hhandled⟩ := heffect c₁ hends₁
      have hadmits₁ : o.admits c₁.snapshot :=
        o.admits_kept (s := c.snapshot) hhandled (by simpa using hne) hadmits
      have hlive₁ : ∀ i ∈ rest, Live c₁.view i := by
        intro i hi
        refine hhandled.live ?_ (hlive i (List.mem_cons_of_mem _ hi))
        rw [List.mem_singleton]
        rintro rfl
        exact hid hi
      obtain ⟨hiff, hall⟩ := ih hready₁ hadmits₁ hlive₁ hrest hactor'
      refine ⟨hhandled, hiff.trans ?_, hall⟩
      have hholders := o.next_one hadmits (show Handled _ _ c.snapshot.store c₁.snapshot.store from hhandled)
      exact forall_congr' fun hg => by rw [hholders hg]
    constructor
    · constructor
      · rintro ⟨c', hends⟩ hg
        obtain ⟨_, c₁, hends₁, hends'⟩ := ends_bind.1 hends
        exact ⟨hstep.1 ⟨c₁, hends₁⟩ hg, (htail c₁ hends₁).2.1.1 ⟨c', hends'⟩ hg⟩
      · intro hdrains
        obtain ⟨c₁, hends₁⟩ := hstep.2 fun hg => (hdrains hg).1
        obtain ⟨c', hends'⟩ := (htail c₁ hends₁).2.1.2 fun hg => (hdrains hg).2
        exact ⟨c', ends_bind.2 ⟨_, _, hends₁, hends'⟩⟩
    · intro c' hends
      obtain ⟨_, c₁, hends₁, hends'⟩ := ends_bind.1 hends
      obtain ⟨hhandled, _, hall⟩ := htail c₁ hends₁
      obtain ⟨hready', hhandled'⟩ := hall c' hends'
      exact ⟨hready', hhandled.cons hhandled' hid⟩

/-- **A commit** makes the transaction's state the committed one. -/
theorem ready_of_commit (hready : Ready c actorUserId) (hends : Ends n (commitTx : Db Unit) c () c') :
    c'.server.store = c.view ∧ Ready (⟨none, c'.server⟩ : Conn Table).begun actorUserId := by
  obtain ⟨d, hcommit, _, hstore, _⟩ := commitTx_ends (ε := ApiError) (p := n) hready.isOpen
  obtain ⟨_, rfl⟩ := hcommit.iff.1 hends
  refine ⟨hstore, rfl, (hends.wf hready.wf).1.begun, ?_, ?_⟩
  · rw [Conn.view_begun, hstore]
    exact hready.linked
  · rw [Conn.view_begun, hstore]
    exact hready.actor

theorem exists_commit (hready : Ready c actorUserId) :
    ∃ c', Ends n (commitTx : Db Unit) c () c' := by
  obtain ⟨c', hcommit, _⟩ := commitTx_ends (ε := ApiError) (p := n) hready.isOpen
  exact ⟨c', hcommit⟩

end Transaction

/-! ## Single steps, one after the other

Each single step is a transaction with its own checks; between two of them the server is idle.
-/

/-- **The single steps are transactions of their own**: what the actor may see is checked first. -/
def IsSingle (o : Operation actorUserId) (actor : ActorContext) (single : Nat → Db Unit) : Prop :=
  ∀ {n : Nat} {s : Server Table} {id : Nat} {c : Conn Table}, o.admits (committed s) →
    id ≠ actorUserId →
      (Ends n (single id) ⟨none, s⟩ () c ↔ Sees (committed s) actor id ∧
        ∃ c', Ends n (o.step id) (⟨none, s⟩ : Conn Table).begun () c' ∧
          Ends n (commitTx : Db Unit) c' () c)

section Single

variable {actorUserId : Nat} {o : Operation actorUserId} {actor : ActorContext}
  {single : Nat → Db Unit} {n n' : Nat} {s s' : Server Table} {ids : List Nat} {id : Nat}
  {c : Conn Table} {l : List (Served Table Unit Nat)}

/-- The state admits the operation whatever the time is. -/
theorem admits_same {t t' : Snap} (hstore : t'.store = t.store) (h : o.admits t) : o.admits t' := by
  have hhandled : Handled o.effect [] t.store t'.store := by
    rw [hstore]
    exact .nil _ _
  exact o.admits_kept hhandled (by simp) h

/-- The state between two single steps. -/
structure Idle (o : Operation actorUserId) (s : Server Table) : Prop where
  ready : Ready (⟨none, s⟩ : Conn Table).begun actorUserId
  admits : o.admits (committed s)

theorem Idle.wait (h : Idle o s) (d : Nat) : Idle o { s with clock := s.clock + d } where
  ready :=
    { isOpen := rfl
      wf := (h.ready.wf.1.advance 0 d).begun
      linked := h.ready.linked
      actor := h.ready.actor }
  admits := admits_same (t := committed s) rfl h.admits

/-- A step that the guard allows can be taken in a transaction of its own. -/
theorem Idle.single_ends (h : Idle o s) (hsingle : IsSingle o actor single)
    (hne : id ≠ actorUserId) :
    ((∃ c, Ends n (single id) ⟨none, s⟩ () c) ↔ Sees (committed s) actor id ∧
      (o.guarded = true → Spares (guardedHolders (committed s)) id)) ∧
    ∀ c, Ends n (single id) ⟨none, s⟩ () c →
      Idle o c.server ∧ Handled o.effect [id] s.store c.server.store := by
  have hstep : Sees (committed s) actor id →
      ((∃ c', Ends n (o.step id) (⟨none, s⟩ : Conn Table).begun () c') ↔
        (o.guarded = true → Spares (guardedHolders (committed s)) id)) ∧
      ∀ c', Ends n (o.step id) (⟨none, s⟩ : Conn Table).begun () c' →
        Ready c' actorUserId ∧ Handled o.effect [id] s.store c'.view := by
    rintro ⟨row, hrow, hlive, _⟩
    have hadmits : o.admits (⟨none, s⟩ : Conn Table).begun.snapshot :=
      admits_same (t := committed s) rfl h.admits
    have hholders : guardedHolders (⟨none, s⟩ : Conn Table).begun.snapshot =
        guardedHolders (committed s) := guardedHolders_congr rfl
    have hends := o.step_ends (n := n) h.ready hadmits ⟨row, hrow, hlive⟩
    rwa [hholders] at hends
  constructor
  · constructor
    · rintro ⟨c, hends⟩
      obtain ⟨hsees, c', hbody, _⟩ := (hsingle h.admits hne).1 hends
      exact ⟨hsees, (hstep hsees).1.1 ⟨c', hbody⟩⟩
    · rintro ⟨hsees, hspares⟩
      obtain ⟨c', hbody⟩ := (hstep hsees).1.2 hspares
      obtain ⟨c, hcommit⟩ := exists_commit (n := n) ((hstep hsees).2 c' hbody).1
      exact ⟨c, (hsingle h.admits hne).2 ⟨hsees, c', hbody, hcommit⟩⟩
  · intro c hends
    obtain ⟨hsees, c', hbody, hcommit⟩ := (hsingle h.admits hne).1 hends
    obtain ⟨hready, hhandled⟩ := (hstep hsees).2 c' hbody
    obtain ⟨hstore, hready'⟩ := ready_of_commit hready hcommit
    rw [← hstore] at hhandled
    refine ⟨⟨hready', ?_⟩, hhandled⟩
    exact o.admits_kept (s := committed s) hhandled (by simpa using hne.symm) h.admits

/-- **What single steps that have succeeded have checked**, and what they have done. -/
theorem Idle.serves_needs (h : Idle o s) (hsingle : IsSingle o actor single)
    (hserves : Serves single n s l n' s') (hnodup : (l.map Served.req).Nodup)
    (hactor : actorUserId ∉ l.map Served.req) :
    (∀ id ∈ l.map Served.req, Sees (committed s) actor id) ∧
      (o.guarded = true → Drains (guardedHolders (committed s)) (l.map Served.req)) ∧
      Idle o s' ∧ Handled o.effect (l.map Served.req) s.store s'.store := by
  induction hserves with
  | nil n s => exact ⟨by simp, fun _ => trivial, h, .nil _ _⟩
  | @wait n n' s s' l d hserves ih =>
    obtain ⟨hsees, hdrains, hidle, hhandled⟩ := ih (h.wait d) hnodup hactor
    have hholders : guardedHolders (committed { s with clock := s.clock + d }) =
        guardedHolders (committed s) := guardedHolders_congr rfl
    rw [hholders] at hdrains
    have hsame : ∀ id, Sees (committed { s with clock := s.clock + d }) actor id ↔
        Sees (committed s) actor id := fun id => sees_same rfl
    exact ⟨fun id hid => (hsame id).1 (hsees id hid), hdrains, hidle, hhandled⟩
  | @request n n' s s' l id reply c hends hserves ih =>
    rw [List.map_cons] at hnodup hactor ⊢
    obtain ⟨hid, hrest⟩ := List.nodup_cons.1 hnodup
    obtain ⟨hne, hactor'⟩ : actorUserId ≠ id ∧ actorUserId ∉ l.map Served.req := by
      simpa using hactor
    obtain ⟨hiff, heffect⟩ := h.single_ends (n := n) hsingle hne.symm
    obtain ⟨hidle₁, hhandled₁⟩ := heffect c hends
    obtain ⟨hsees, hspares⟩ := hiff.1 ⟨c, hends⟩
    obtain ⟨hseen, hdrains, hidle, hhandled⟩ := ih hidle₁ hrest hactor'
    refine ⟨fun i hi => ?_, fun hg => ⟨hspares hg, ?_⟩, hidle, hhandled₁.cons hhandled hid⟩
    · rcases List.mem_cons.1 hi with rfl | hmem
      · exact hsees
      · exact (hhandled₁.sees_other hid hmem).1 (hseen i hmem)
    · have hdrain := hdrains hg
      rwa [o.next_one (s := committed s) h.admits hhandled₁ hg] at hdrain

/-- **The single steps can be taken** if the actor sees the accounts and the guard lets them pass. -/
theorem Idle.exists_serves (h : Idle o s) (hsingle : IsSingle o actor single) (hnodup : ids.Nodup)
    (hactor : actorUserId ∉ ids) (hsees : ∀ id ∈ ids, Sees (committed s) actor id)
    (hdrains : o.guarded = true → Drains (guardedHolders (committed s)) ids) :
    ∃ l n' s', Serves single n s l n' s' ∧ l.map Served.req = ids := by
  induction ids generalizing n s with
  | nil => exact ⟨[], n, s, .nil n s, rfl⟩
  | cons id ids ih =>
    obtain ⟨hid, hrest⟩ := List.nodup_cons.1 hnodup
    obtain ⟨hne, hactor'⟩ : actorUserId ≠ id ∧ actorUserId ∉ ids := by simpa using hactor
    obtain ⟨hiff, heffect⟩ := h.single_ends (n := n) hsingle hne.symm
    obtain ⟨c, hends⟩ := hiff.2 ⟨hsees id List.mem_cons_self, fun hg => (hdrains hg).1⟩
    obtain ⟨hidle₁, hhandled₁⟩ := heffect c hends
    have hsees₁ : ∀ i ∈ ids, Sees (committed c.server) actor i := by
      intro i hi
      exact (hhandled₁.sees_other hid hi).2 (hsees i (List.mem_cons_of_mem _ hi))
    have hdrains₁ : o.guarded = true → Drains (guardedHolders (committed c.server)) ids := by
      intro hg
      rw [o.next_one (s := committed s) h.admits hhandled₁ hg]
      exact (hdrains hg).2
    obtain ⟨l, n', s', hserves, hl⟩ := ih (n := n + 1) hidle₁ hrest hactor' hsees₁ hdrains₁
    exact ⟨_, n', s', .request hends hserves, by rw [List.map_cons, hl]⟩

end Single

end Operation

/-! ## Batches

A batch does its checks, and then its steps in one transaction. Both succeed under the same
condition, in which the order of the accounts does not occur.
-/

/-- **The single steps succeed one after the other**, in that order; time may pass in between. -/
def OneByOne (single : Nat → Db Unit) (m : Nat) (order : List Nat) (s s' : Server Table) : Prop :=
  ∃ m' l, Serves single m s l m' s' ∧ l.map Served.req = order

/-- **A batch equals its single steps** in any order, and changes nothing when it fails. The
batch succeeds exactly when the single steps do, in one order or another; each of these steps
succeeds where the ones before it have; the outcomes are the same but for timestamps. -/
structure BatchAgrees (batch : Db Unit) (single : Nat → Db Unit) (ids : List Nat)
    (s : Server Table) : Prop where
  succeeds : ∀ order, order.Perm ids → ∀ n m,
    (∃ c, Ends n batch ⟨none, s⟩ () c) ↔ ∃ s', OneByOne single m order s s'
  steady : ∀ before id after, (before ++ id :: after).Perm ids → ∀ n m m' l s',
    (∃ c, Ends n batch ⟨none, s⟩ () c) → Serves single m s l m' s' → l.map Served.req = before →
      ∃ c, Ends m' (single id) ⟨none, s'⟩ () c
  same : ∀ order, order.Perm ids → ∀ n m c s', Ends n batch ⟨none, s⟩ () c →
    OneByOne single m order s s' → SameButTimes c.server.store s'.store
  fails : ∀ n e, (batch.run n ⟨none, s⟩).1 = .error e →
    (batch.run n ⟨none, s⟩).2.server.store = s.store

namespace Operation

/-- **The steps of the batch share a transaction**: what the actor may see is checked first. -/
def IsBatch {actorUserId : Nat} (o : Operation actorUserId) (actor : ActorContext) (ids : List Nat)
    (batch : Db Unit) (s : Server Table) : Prop :=
  ∀ n c, Ends n batch ⟨none, s⟩ () c ↔ o.admits (committed s) ∧
    (∀ id ∈ ids, Sees (committed s) actor id) ∧
      ∃ c', Ends n (Prog.forEach ids o.step) (⟨none, s⟩ : Conn Table).begun () c' ∧
        Ends n (commitTx : Db Unit) c' () c

section Batch

variable {actorUserId : Nat} {o : Operation actorUserId} {actor : ActorContext}
  {batch : Db Unit} {single : Nat → Db Unit} {n m m' : Nat} {s s' : Server Table}
  {ids order : List Nat} {c : Conn Table} {l : List (Served Table Unit Nat)}

/-- When a batch succeeds, and what it does. -/
theorem Idle.batch_ends (h : Idle o s) (hbatch : IsBatch o actor ids batch s) (hnodup : ids.Nodup)
    (hactor : actorUserId ∉ ids) :
    ((∃ c, Ends n batch ⟨none, s⟩ () c) ↔ (∀ id ∈ ids, Sees (committed s) actor id) ∧
      (o.guarded = true → Drains (guardedHolders (committed s)) ids)) ∧
    ∀ c, Ends n batch ⟨none, s⟩ () c → Handled o.effect ids s.store c.server.store := by
  have hsteps : (∀ id ∈ ids, Sees (committed s) actor id) →
      ((∃ c', Ends n (Prog.forEach ids o.step) (⟨none, s⟩ : Conn Table).begun () c') ↔
        (o.guarded = true → Drains (guardedHolders (committed s)) ids)) ∧
      ∀ c', Ends n (Prog.forEach ids o.step) (⟨none, s⟩ : Conn Table).begun () c' →
        Ready c' actorUserId ∧ Handled o.effect ids s.store c'.view := by
    intro hsees
    have hadmits : o.admits (⟨none, s⟩ : Conn Table).begun.snapshot :=
      admits_same (t := committed s) rfl h.admits
    have hlive : ∀ id ∈ ids, Live s.store id := by
      intro id hid
      obtain ⟨row, hrow, hlive, _⟩ := hsees id hid
      exact ⟨row, hrow, hlive⟩
    have hholders : guardedHolders (⟨none, s⟩ : Conn Table).begun.snapshot =
        guardedHolders (committed s) := guardedHolders_congr rfl
    have hends := o.forEach_ends (n := n) h.ready hadmits hlive hnodup hactor
    rwa [hholders] at hends
  constructor
  · constructor
    · rintro ⟨c, hends⟩
      obtain ⟨_, hsees, c', hbody, _⟩ := (hbatch n c).1 hends
      exact ⟨hsees, (hsteps hsees).1.1 ⟨c', hbody⟩⟩
    · rintro ⟨hsees, hdrains⟩
      obtain ⟨c', hbody⟩ := (hsteps hsees).1.2 hdrains
      obtain ⟨c, hcommit⟩ := exists_commit (n := n) ((hsteps hsees).2 c' hbody).1
      exact ⟨c, (hbatch n c).2 ⟨h.admits, hsees, c', hbody, hcommit⟩⟩
  · intro c hends
    obtain ⟨_, hsees, c', hbody, hcommit⟩ := (hbatch n c).1 hends
    obtain ⟨hready, hhandled⟩ := (hsteps hsees).2 c' hbody
    rw [(ready_of_commit hready hcommit).1]
    exact hhandled

/-- The first of the single steps finds the tables as they are. -/
theorem first_of_serves (h : Serves single m s l m' s') (hl : l ≠ []) :
    ∃ i t id c, t.store = s.store ∧ Ends i (single id) ⟨none, t⟩ () c := by
  induction h with
  | nil n s => exact absurd rfl hl
  | wait d h ih =>
    obtain ⟨i, t, id, c, hstore, hends⟩ := ih hl
    exact ⟨i, t, id, c, hstore, hends⟩
  | @request n n' s s' l id reply c hends h ih => exact ⟨n, s, id, c, rfl, hends⟩

/-- **A batch of steps that do not depend on each other equals its single steps.** -/
theorem agrees (hready : Ready (⟨none, s⟩ : Conn Table).begun actorUserId)
    (hsingle : IsSingle o actor single) (hbatch : IsBatch o actor ids batch s)
    (hneeds : ∀ i t id c, t.store = s.store → Ends i (single id) ⟨none, t⟩ () c →
      o.admits (committed t))
    (hatomic : batch.Atomic) (hids : ids ≠ []) (hnodup : ids.Nodup) (hactor : actorUserId ∉ ids) :
    BatchAgrees batch single ids s := by
  -- what any order of the accounts has in common with the list of the batch
  have hperm : ∀ {order : List Nat}, order.Perm ids → order.Nodup ∧ actorUserId ∉ order ∧
      ∀ id, id ∈ order ↔ id ∈ ids := fun h =>
    ⟨h.nodup_iff.2 hnodup, fun hmem => hactor (h.mem_iff.1 hmem), fun _ => h.mem_iff⟩
  constructor
  · intro order horder n m
    obtain ⟨hnodup', hactor', hmem⟩ := hperm horder
    constructor
    · rintro ⟨c, hends⟩
      have hidle : Idle o s := ⟨hready, ((hbatch n c).1 hends).1⟩
      obtain ⟨hsees, hdrains⟩ := (hidle.batch_ends hbatch hnodup hactor).1.1 ⟨c, hends⟩
      obtain ⟨l, m', s', hserves, hl⟩ := hidle.exists_serves (n := m) hsingle hnodup' hactor'
        (fun id hid => hsees id ((hmem id).1 hid)) fun hg => (hdrains hg).perm horder.symm
      exact ⟨s', m', l, hserves, hl⟩
    · rintro ⟨s', m', l, hserves, rfl⟩
      have hne : l ≠ [] := by
        rintro rfl
        exact hids horder.nil_eq.symm
      obtain ⟨i, t, id, c, hstore, hends⟩ := first_of_serves hserves hne
      have hidle : Idle o s :=
        ⟨hready, admits_same (t := committed t) hstore.symm (hneeds i t id c hstore hends)⟩
      obtain ⟨hsees, hdrains, _⟩ := hidle.serves_needs hsingle hserves hnodup' hactor'
      exact (hidle.batch_ends hbatch hnodup hactor).1.2
        ⟨fun id hid => hsees id ((hmem id).2 hid), fun hg => (hdrains hg).perm horder⟩
  · rintro before id after horder n m m' l s' ⟨c, hends⟩ hserves rfl
    obtain ⟨hnodup', hactor', hmem⟩ := hperm horder
    have hidle : Idle o s := ⟨hready, ((hbatch n c).1 hends).1⟩
    obtain ⟨hsees, hdrains⟩ := (hidle.batch_ends hbatch hnodup hactor).1.1 ⟨c, hends⟩
    obtain ⟨hbefore, hafter, hdisjoint⟩ := List.nodup_append.1 hnodup'
    obtain ⟨_, _, hidle', hhandled⟩ := hidle.serves_needs hsingle hserves hbefore
      fun hmem' => hactor' (List.mem_append_left _ hmem')
    have hne : id ≠ actorUserId := by
      rintro rfl
      exact hactor' (List.mem_append_right _ List.mem_cons_self)
    refine (hidle'.single_ends hsingle hne).1.2 ⟨?_, fun hg => ?_⟩
    · have hnot : id ∉ l.map Served.req := fun hmem' =>
        hdisjoint id hmem' id List.mem_cons_self rfl
      exact (Handled.sees (s := committed s) hhandled hnot).2
        (hsees id ((hmem id).1 (List.mem_append_right _ List.mem_cons_self)))
    · have hhandled' : Handled o.effect (l.map Served.req) (committed s).store
          (committed s').store := hhandled
      obtain ⟨_, hdrain⟩ := LastMember.drains_append.1 ((hdrains hg).perm horder.symm)
      rw [← o.next hidle.admits hhandled' hg] at hdrain
      exact hdrain.1
  · rintro order horder n m c s' hends ⟨m', l, hserves, rfl⟩
    obtain ⟨hnodup', hactor', hmem⟩ := hperm horder
    have hidle : Idle o s := ⟨hready, ((hbatch n c).1 hends).1⟩
    have hhandled := (hidle.batch_ends hbatch hnodup hactor).2 c hends
    obtain ⟨_, _, _, hhandled'⟩ := hidle.serves_needs hsingle hserves hnodup' hactor'
    exact hhandled.same hhandled' fun u => (hmem u).symm
  · exact fun n e herror => hatomic n _ e herror

end Batch

end Operation

/-! ## Deletion and assignment

The two operations as instances.
-/

/-- The reads of an operation, in front of the rest of it. -/
theorem Repositories.Users.ends_roleIdsByUser_bind {n id : Nat} {f : List Nat → Db Unit}
    {c c' : Conn Table} : Ends n (roleIdsByUser id >>= f) c () c' ↔
      Ends n (f (rolesOf (committed c.server) id)) c () c' := by
  have hread : Ends n (roleIdsByUser id) c (rolesOf (committed c.server) id) c :=
    ends_bind.2 ⟨_, _, ends_poolQuery.2 ⟨rfl, rfl⟩, ends_ret.2 ⟨rfl, rfl⟩⟩
  exact ends_bind_of hread

/-- `users::delete` as an operation: the guard is always called. -/
def deletion (actorUserId : Nat) : Operation actorUserId where
  effect := .deletion
  guarded := true
  admits _ := True
  step id := Services.Users.deleteOne id (some actorUserId)
  admits_kept _ _ _ := trivial
  role_lost _ _ _ := rfl
  step_ends := by
    intro n c id hready _ hlive
    obtain ⟨hiff, heffect⟩ := Services.Users.deleteOne_ends (n := n) id hready
    exact ⟨hiff.trans ⟨fun h _ => h.2, fun h => ⟨hlive, h rfl⟩⟩, heffect⟩

/-- `users::assign_roles` as an operation: the guard is called unless the role is among those
assigned. -/
def assignment (actorUserId : Nat) (superAdminRoleId : Option Nat) (roleIds : List Nat)
    (canGrantSuperAdmin : Bool) : Operation actorUserId where
  effect := .assignment roleIds
  guarded := !superAdminRoleId.any roleIds.contains
  admits s := Grants s actorUserId roleIds canGrantSuperAdmin ∧
    Repositories.Roles.activeByCode s "super_admin" = superAdminRoleId
  step id := do
    let previousRoleIds ← Repositories.Users.roleIdsByUser id
    Services.Users.replaceRoles superAdminRoleId (some actorUserId) id roleIds previousRoleIds
  admits_kept := by
    rintro s s' ids hhandled hactor ⟨hgrants, hcode⟩
    exact ⟨hhandled.grants hactor hgrants, (hhandled.activeByCode _).trans hcode⟩
  role_lost := by
    rintro s roleId ⟨hgrants, rfl⟩ hguarded hrole
    exact hgrants.guarded (by simpa using hguarded) hrole
  step_ends := by
    rintro n c id hready ⟨hgrants, _⟩ ⟨row, hrow, _⟩
    have hroles : ∀ roleId ∈ roleIds, (c.view.get .roles roleId).isSome := by
      intro roleId hmem
      obtain ⟨role, hrole, _⟩ := hgrants.role hmem
      exact Option.isSome_iff_exists.2 ⟨role, hrole⟩
    have huser : (c.view.get .users id).isSome := Option.isSome_iff_exists.2 ⟨row, hrow⟩
    have hread : ∀ c', Ends n (do
        let previousRoleIds ← Repositories.Users.roleIdsByUser id
        Services.Users.replaceRoles superAdminRoleId (some actorUserId) id roleIds
          previousRoleIds : Db Unit) c () c' ↔
        Ends n (Services.Users.replaceRoles superAdminRoleId (some actorUserId) id roleIds
          (Repositories.Users.rolesOf (committed c.server) id)) c () c' := fun c' =>
      Repositories.Users.ends_roleIdsByUser_bind
    simp only [hread]
    obtain ⟨hiff, heffect⟩ := Services.Users.replaceRoles_ends (n := n) superAdminRoleId roleIds
      (Repositories.Users.rolesOf (committed c.server) id) hready huser hgrants.nodup hroles
    refine ⟨hiff.trans ?_, heffect⟩
    cases superAdminRoleId.any roleIds.contains <;> simp

namespace Services.Users

section Checked

variable {n actorUserId : Nat} {s : Server Table} {c c' : Conn Table} {actor : ActorContext}
  {id : Nat} {ids roleIds : List Nat} {canGrantSuperAdmin : Bool}

/-- What `validate_batch_user_ids` accepts. -/
theorem ends_validateBatchUserIds : Ends n (validateBatchUserIds ids actorUserId) c () c' ↔
    c' = c ∧ ids ≠ [] ∧ ids.Nodup ∧ actorUserId ∉ ids := by
  have hnodup : (ids.dedup.length != ids.length) = false ↔ ids.Nodup := by
    rw [bne_eq_false_iff_eq]
    exact ⟨nodup_of_length, fun h => by rw [h.dedup]⟩
  constructor
  · intro h
    obtain ⟨_, c₁, hempty, hrest⟩ := ends_bind.1 h
    obtain ⟨hne, rfl⟩ := ends_reject.1 hempty
    obtain ⟨_, c₂, hdistinct, hself⟩ := ends_bind.1 hrest
    obtain ⟨hlength, rfl⟩ := ends_reject.1 hdistinct
    obtain ⟨hnot, rfl⟩ := ends_reject.1 hself
    exact ⟨rfl, by simpa using hne, hnodup.1 hlength, by simpa using hnot⟩
  · rintro ⟨rfl, hne, hdistinct, hself⟩
    refine ends_bind.2 ⟨(), c', ends_reject.2 ⟨by simpa using hne, rfl⟩, ?_⟩
    refine ends_bind.2 ⟨(), c', ends_reject.2 ⟨hnodup.2 hdistinct, rfl⟩, ?_⟩
    exact ends_reject.2 ⟨by simpa using hself, rfl⟩

/-- The batch checks for every account what the single steps check. -/
theorem ends_forEach_ensureActorCanAccess :
    Ends n (Prog.forEach ids fun userId => ensureActorCanAccess (some actor) userId) c () c' ↔
      c' = c ∧ ∀ id ∈ ids, Sees (committed c.server) actor id := by
  induction ids generalizing c with
  | nil =>
    constructor
    · intro h
      exact ⟨(ends_ret.1 h).2, by simp⟩
    · rintro ⟨rfl, _⟩
      exact ends_ret.2 ⟨rfl, rfl⟩
  | cons id ids ih =>
    constructor
    · intro h
      obtain ⟨_, c₁, hfirst, hrest⟩ := ends_bind.1 h
      obtain ⟨rfl, hsees⟩ := ends_ensureActorCanAccess.1 hfirst
      obtain ⟨rfl, hall⟩ := ih.1 hrest
      exact ⟨rfl, List.forall_mem_cons.2 ⟨hsees, hall⟩⟩
    · rintro ⟨rfl, hall⟩
      obtain ⟨hsees, hrest⟩ := List.forall_mem_cons.1 hall
      exact ends_bind.2 ⟨(), c', ends_ensureActorCanAccess.2 ⟨rfl, hsees⟩, ih.2 ⟨rfl, hrest⟩⟩

/-- A transaction is opened and committed around a program. -/
theorem ends_transaction {m : Db Unit} : Ends n (do
      beginTx
      m
      commitTx : Db Unit) ⟨none, s⟩ () c ↔
    ∃ c', Ends n m (⟨none, s⟩ : Conn Table).begun () c' ∧ Ends n (commitTx : Db Unit) c' () c := by
  have hbegin : Ends n (beginTx : Db Unit) ⟨none, s⟩ () (⟨none, s⟩ : Conn Table).begun :=
    ends_beginTx.2 rfl
  rw [ends_bind_of hbegin, ends_bind]
  constructor
  · rintro ⟨_, c', hbody, hcommit⟩
    exact ⟨c', hbody, hcommit⟩
  · rintro ⟨c', hbody, hcommit⟩
    exact ⟨(), c', hbody, hcommit⟩

theorem delete_single : (deletion actor.userId).IsSingle actor fun id => delete id (some actor) := by
  intro n s id c _ hne
  constructor
  · intro h
    obtain ⟨_, c₁, haccess, hrest⟩ := ends_bind.1 h
    obtain ⟨rfl, hsees⟩ := ends_ensureActorCanAccess.1 haccess
    obtain ⟨_, c₂, hself, htransaction⟩ := ends_bind.1 hrest
    obtain ⟨_, rfl⟩ := ends_reject.1 hself
    exact ⟨hsees, ends_transaction.1 htransaction⟩
  · rintro ⟨hsees, htransaction⟩
    have hself : ((some actor).map (·.userId) == some id) = false := by
      simpa using hne.symm
    refine ends_bind.2 ⟨(), _, ends_ensureActorCanAccess.2 ⟨rfl, hsees⟩, ?_⟩
    exact ends_bind.2 ⟨(), _, ends_reject.2 ⟨hself, rfl⟩, ends_transaction.2 htransaction⟩

theorem deleteMany_batch (hids : ids ≠ []) (hnodup : ids.Nodup) (hactor : actor.userId ∉ ids) :
    (deletion actor.userId).IsBatch actor ids (deleteMany (some actor) ⟨ids⟩) s := by
  intro n c
  constructor
  · intro h
    obtain ⟨_, c₁, hactor', hrest⟩ := ends_bind.1 h
    obtain ⟨hsome, rfl⟩ := ends_okOr.1 hactor'
    cases hsome
    obtain ⟨_, c₂, hvalid, hrest'⟩ := ends_bind.1 hrest
    obtain ⟨rfl, _⟩ := ends_validateBatchUserIds.1 hvalid
    obtain ⟨_, c₃, haccess, htransaction⟩ := ends_bind.1 hrest'
    obtain ⟨rfl, hsees⟩ := ends_forEach_ensureActorCanAccess.1 haccess
    exact ⟨trivial, hsees, ends_transaction.1 htransaction⟩
  · rintro ⟨_, hsees, htransaction⟩
    refine ends_bind.2 ⟨actor, _, ends_okOr.2 ⟨rfl, rfl⟩, ?_⟩
    refine ends_bind.2 ⟨(), _, ends_validateBatchUserIds.2 ⟨rfl, hids, hnodup, hactor⟩, ?_⟩
    exact ends_bind.2 ⟨(), _, ends_forEach_ensureActorCanAccess.2 ⟨rfl, hsees⟩,
      ends_transaction.2 htransaction⟩

theorem ends_idByCode_bind {f : Option Nat → Db Unit} (code : String) :
    Ends n (Repositories.Roles.idByCode code >>= f) c () c' ↔
      Ends n (f (Repositories.Roles.activeByCode (committed c.server) code)) c () c' := by
  have hread : Ends n (Repositories.Roles.idByCode code) c
      (Repositories.Roles.activeByCode (committed c.server) code) c :=
    ends_bind.2 ⟨_, _, ends_poolQuery.2 ⟨rfl, rfl⟩, ends_ret.2 ⟨rfl, rfl⟩⟩
  exact ends_bind_of hread

/-- A role that may not be handed out may not be assigned. -/
theorem grants_of_assignRoles
    (h : Ends n (assignRoles (some actor) id ⟨roleIds⟩ canGrantSuperAdmin) ⟨none, s⟩ () c) :
    Sees (committed s) actor id ∧ Grants (committed s) actor.userId roleIds canGrantSuperAdmin ∧
      Ends n (do
        let previousRoleIds ← Repositories.Users.roleIdsByUser id
        beginTx
        replaceRoles (Repositories.Roles.activeByCode (committed s) "super_admin")
          (some actor.userId) id roleIds previousRoleIds
        commitTx) ⟨none, s⟩ () c := by
  obtain ⟨_, c₁, haccess, hrest⟩ := ends_bind.1 h
  obtain ⟨rfl, hsees⟩ := ends_ensureActorCanAccess.1 haccess
  obtain ⟨_, c₂, hscope, hrest'⟩ := ends_bind.1 ((ends_idByCode_bind _).1 hrest)
  obtain ⟨rfl, hgrants⟩ := ends_validateRoleGrantScope.1 hscope
  exact ⟨hsees, hgrants, hrest'⟩

theorem assignRoles_single (superAdminRoleId : Option Nat) :
    (assignment actor.userId superAdminRoleId roleIds canGrantSuperAdmin).IsSingle actor fun id =>
      assignRoles (some actor) id ⟨roleIds⟩ canGrantSuperAdmin := by
  rintro n s id c ⟨hgrants, rfl⟩ _
  -- the roles that are replaced are read from the same tables
  have hsame : Ends n (do
      let previousRoleIds ← Repositories.Users.roleIdsByUser id
      beginTx
      replaceRoles (Repositories.Roles.activeByCode (committed s) "super_admin")
        (some actor.userId) id roleIds previousRoleIds
      commitTx) ⟨none, s⟩ () c ↔ ∃ c', Ends n ((assignment actor.userId
        (Repositories.Roles.activeByCode (committed s) "super_admin") roleIds
        canGrantSuperAdmin).step id) (⟨none, s⟩ : Conn Table).begun () c' ∧
          Ends n (commitTx : Db Unit) c' () c := by
    rw [Repositories.Users.ends_roleIdsByUser_bind, ends_transaction]
    refine exists_congr fun c' => and_congr_left fun _ => ?_
    have hread : Ends n (Repositories.Users.roleIdsByUser id >>= fun previousRoleIds =>
        replaceRoles (Repositories.Roles.activeByCode (committed s) "super_admin")
          (some actor.userId) id roleIds previousRoleIds) (⟨none, s⟩ : Conn Table).begun () c' ↔ _ :=
      Repositories.Users.ends_roleIdsByUser_bind
    exact hread.symm
  constructor
  · intro h
    obtain ⟨hsees, _, hrest⟩ := grants_of_assignRoles h
    exact ⟨hsees, hsame.1 hrest⟩
  · rintro ⟨hsees, htransaction⟩
    refine ends_bind.2 ⟨(), _, ends_ensureActorCanAccess.2 ⟨rfl, hsees⟩, ?_⟩
    refine (ends_idByCode_bind _).2 (ends_bind.2 ⟨(), _,
      ends_validateRoleGrantScope.2 ⟨rfl, hgrants⟩, hsame.2 htransaction⟩)

theorem assignRolesMany_batch (hids : ids ≠ []) (hnodup : ids.Nodup)
    (hactor : actor.userId ∉ ids) :
    (assignment actor.userId (Repositories.Roles.activeByCode (committed s) "super_admin") roleIds
      canGrantSuperAdmin).IsBatch actor ids
        (assignRolesMany (some actor) ⟨ids, roleIds⟩ canGrantSuperAdmin) s := by
  intro n c
  constructor
  · intro h
    obtain ⟨_, c₁, hactor', hrest⟩ := ends_bind.1 h
    obtain ⟨hsome, rfl⟩ := ends_okOr.1 hactor'
    cases hsome
    obtain ⟨_, c₂, hvalid, hrest'⟩ := ends_bind.1 hrest
    obtain ⟨rfl, _⟩ := ends_validateBatchUserIds.1 hvalid
    obtain ⟨_, c₃, hscope, hrest₂⟩ := ends_bind.1 hrest'
    obtain ⟨rfl, hgrants⟩ := ends_validateRoleGrantScope.1 hscope
    obtain ⟨_, c₄, haccess, hrest₃⟩ := ends_bind.1 hrest₂
    obtain ⟨rfl, hsees⟩ := ends_forEach_ensureActorCanAccess.1 haccess
    exact ⟨⟨hgrants, rfl⟩, hsees, ends_transaction.1 ((ends_idByCode_bind _).1 hrest₃)⟩
  · rintro ⟨⟨hgrants, _⟩, hsees, htransaction⟩
    refine ends_bind.2 ⟨actor, _, ends_okOr.2 ⟨rfl, rfl⟩, ?_⟩
    refine ends_bind.2 ⟨(), _, ends_validateBatchUserIds.2 ⟨rfl, hids, hnodup, hactor⟩, ?_⟩
    refine ends_bind.2 ⟨(), _, ends_validateRoleGrantScope.2 ⟨rfl, hgrants⟩, ?_⟩
    refine ends_bind.2 ⟨(), _, ends_forEach_ensureActorCanAccess.2 ⟨rfl, hsees⟩, ?_⟩
    exact (ends_idByCode_bind _).2 (ends_transaction.2 htransaction)

end Checked

theorem deleteMany_atomic (actor : ActorContext) (ids : List Nat) :
    (deleteMany (some actor) ⟨ids⟩).Atomic := by
  refine .bind (all_okOr _ _) fun _ => .bind (validateBatchUserIds_within _ _).uncommitting fun _ => ?_
  refine .bind (Prog.All.forEach fun _ => ensureActorCanAccess_within _ _).uncommitting fun _ => ?_
  refine .bind beginTx_uncommitting fun _ => ?_
  refine .bind (Prog.All.forEach fun _ => deleteOne_within ordinary_anything _ _).uncommitting
    fun _ => ?_
  exact commitTx_atomic

theorem assignRolesMany_atomic (actor : ActorContext) (req : BatchAssignRolesRequest)
    (canGrantSuperAdmin : Bool) : (assignRolesMany (some actor) req canGrantSuperAdmin).Atomic := by
  refine .bind (all_okOr _ _) fun found => .bind (validateBatchUserIds_within _ _).uncommitting fun _ => ?_
  refine .bind (validateRoleGrantScope_within _ _ _).uncommitting fun _ => ?_
  refine .bind (Prog.All.forEach fun _ => ensureActorCanAccess_within _ _).uncommitting fun _ => ?_
  refine .bind (Repositories.Roles.idByCode_within _).uncommitting fun superAdminRoleId => ?_
  refine .bind beginTx_uncommitting fun _ => ?_
  have hstep : ∀ userId, (do
      let previousRoleIds ← Repositories.Users.roleIdsByUser userId
      replaceRoles superAdminRoleId (some found.userId) userId req.roleIds
        previousRoleIds).Uncommitting := fun userId =>
    .bind (Repositories.Users.roleIdsByUser_within _).uncommitting fun _ =>
      replaceRoles_all (fun _ ha => ha.ne_commit) ordinary_anything free_anything _ _ _ _ _
        fun _ h => by cases h
  refine .bind (Prog.All.forEach hstep) fun _ => ?_
  exact commitTx_atomic

end Services.Users

/-- **Batch operations equal their single steps**, in any order of the accounts, and have no partial
effect. -/
theorem batches {n : Nat} {s : Server Table} {actor : ActorContext} {ids : List Nat}
    {c : Conn Table} (hwf : s.Wf) (hlinked : Linked s.store)
    (hactor : (s.store.get .users actor.userId).isSome)
    (haccepted : Ends n (Services.Users.validateBatchUserIds ids actor.userId) ⟨none, s⟩ () c) :
    BatchAgrees (Services.Users.deleteMany (some actor) ⟨ids⟩)
      (fun id => Services.Users.delete id (some actor)) ids s ∧
    ∀ roleIds canGrantSuperAdmin,
      BatchAgrees (Services.Users.assignRolesMany (some actor) ⟨ids, roleIds⟩ canGrantSuperAdmin)
        (fun id => Services.Users.assignRoles (some actor) id ⟨roleIds⟩ canGrantSuperAdmin) ids s := by
  obtain ⟨_, hids, hnodup, hself⟩ := Services.Users.ends_validateBatchUserIds.1 haccepted
  have hready : Ready (⟨none, s⟩ : Conn Table).begun actor.userId := ⟨rfl, hwf.begun, hlinked, hactor⟩
  constructor
  · exact Operation.agrees hready Services.Users.delete_single
      (Services.Users.deleteMany_batch hids hnodup hself) (fun _ _ _ _ _ _ => trivial)
      (Services.Users.deleteMany_atomic actor ids) hids hnodup hself
  · intro roleIds canGrantSuperAdmin
    refine Operation.agrees hready (Services.Users.assignRoles_single _)
      (Services.Users.assignRolesMany_batch hids hnodup hself) ?_
      (Services.Users.assignRolesMany_atomic actor _ _) hids hnodup hself
    intro i t id c hstore hends
    obtain ⟨_, hgrants, _⟩ := Services.Users.grants_of_assignRoles hends
    refine ⟨hgrants, ?_⟩
    unfold Repositories.Roles.activeByCode
    show ((t.store.rows .roles).find? _).map _ = ((s.store.rows .roles).find? _).map _
    rw [hstore]

/-- The administrator of the sample chart and two members of its staff. -/
theorem batches_office :
    BatchAgrees (Services.Users.deleteMany (some Sample.administrator) ⟨[22, 23]⟩)
      (fun id => Services.Users.delete id (some Sample.administrator)) [22, 23] Sample.office := by
  have hactor : (Sample.office.store.get .users Sample.administrator.userId).isSome := by
    have hrow : ∃ e ∈ (Sample.office.store.rows .users : List (Nat × UserRow)),
        e.1 = Sample.administrator.userId := by
      decide +kernel
    obtain ⟨e, he, hid⟩ := hrow
    have hget : Sample.office.store.get .users e.1 = some e.2 := Store.mem_rows.1 he
    rw [hid] at hget
    exact Option.isSome_iff_exists.2 ⟨e.2, hget⟩
  have haccepted : Ends 0 (Services.Users.validateBatchUserIds [22, 23] Sample.administrator.userId)
      ⟨none, Sample.office⟩ () ⟨none, Sample.office⟩ :=
    Services.Users.ends_validateBatchUserIds.2 ⟨rfl, by simp, by simp, by decide⟩
  exact (batches Sample.office_wf Sample.office_linked hactor haccepted).1

end ArcAdmin
