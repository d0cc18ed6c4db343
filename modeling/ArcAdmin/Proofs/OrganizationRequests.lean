import ArcAdmin.Proofs.DepartmentTree

/-!
# What requests do to departments and accounts

What has been checked and what has changed when a request that creates, changes or deletes a
department or an account has succeeded, nobody else acting meanwhile.

* **`OrganizationRequest`** — these requests;
* **`Created`**, **`Deleted`** — the effect on departments (`Updated` is in `DepartmentTree`);
* **`Joined`**, **`Edited`** — the effect on accounts.
-/

namespace ArcAdmin

open ReadCommitted
open Repositories.Departments
open Prog.All

/-- A request about departments or accounts. The flags are the permissions of the actor. -/
inductive OrganizationRequest where
  | createDepartment (req : CreateDepartmentRequest)
  | updateDepartment (id : Nat) (req : UpdateDepartmentRequest)
  | deleteDepartment (id : Nat)
  | createUser (req : CreateUserRequest) (canGrantSuperAdmin canAssignDepartment : Bool)
  | updateUser (id : Nat) (req : UpdateUserRequest) (canGrantSuperAdmin canAssignDepartment : Bool)

/-- **The service that answers the request.** -/
def OrganizationRequest.perform (env : External) (actor : ActorContext) :
    OrganizationRequest → Db Unit
  | .createDepartment req => do
    let _ ← Services.Departments.create actor req
  | .updateDepartment id req => do
    let _ ← Services.Departments.update actor id req
  | .deleteDepartment id => Services.Departments.delete actor id
  | .createUser req canGrantSuperAdmin canAssignDepartment => do
    let _ ← Services.Users.create env actor req canGrantSuperAdmin canAssignDepartment
  | .updateUser id req canGrantSuperAdmin canAssignDepartment => do
    let _ ← Services.Users.update env id (some actor) req canGrantSuperAdmin canAssignDepartment

/-! ## Creating a department

A creation checks the parent and inserts a row below it.
-/

/-- **The effect of a new department** `id` below `parentId`. -/
structure Created (σ σ' : Store Table) (actor : ActorContext) (id parentId : Nat) : Prop where
  visible : Visible σ actor parentId
  fresh : σ.get .departments id = none
  row : ∀ i, i ≠ id → σ'.get .departments i = σ.get .departments i
  created : ∃ new : DepartmentRow, σ'.get .departments id = some new ∧
    new.organizationId = actor.organizationId ∧ new.parentId = some parentId
  table : ∀ t, t ∉ [Table.departments, .auditLogs] → σ' t = σ t

namespace Repositories.Departments

theorem create_ends {n : Nat} {c c' : Conn Table} {organizationId id : Nat}
    {department : NewDepartment} (h : Ends n (create organizationId department) c id c') :
    Spared (tables [.departments]) c c' ∧ c.view.get .departments id = none ∧
      ∃ new : DepartmentRow, new.organizationId = organizationId ∧
        new.parentId = some department.parentId ∧ ∀ i, c'.view.get .departments i =
          if i = id then some new else c.view.get .departments i := by
  obtain ⟨s, c₁, hs, hrest⟩ := ends_bind.1 h
  obtain ⟨rfl, rfl⟩ := ends_query.1 hs
  obtain ⟨key, c₂, hinsert, hrest₂⟩ := ends_bind.1 hrest
  obtain ⟨hopen, hnone, _, hspared, hget⟩ := Insert.of_ends hinsert
  obtain ⟨_, c₃, horg, hrest₃⟩ := ends_bind.1 hrest₂
  have hsame₃ := references_spared horg
  obtain ⟨_, c₄, hparent, hret⟩ := ends_bind.1 hrest₃
  obtain ⟨rfl, rfl⟩ := ends_ret.1 hret
  have hsame₄ := (referencesParent_ends
    (hsame₃.isOpen.trans (hspared.isOpen.trans hopen)) hparent).2
  have hsame := hsame₃.trans hsame₄
  refine ⟨hspared.trans (hsame.mono fun t _ _ _ _ ht => by cases ht), hnone, ?_⟩
  rw [hsame.view_eq]
  exact ⟨_, rfl, rfl, hget⟩

end Repositories.Departments

namespace Services.Departments

section Create

variable {n : Nat} {s : Server Table} {c' : Conn Table} {actor : ActorContext}
  {req : CreateDepartmentRequest} {id : Nat}

/-- A creation up to its commit. -/
def creating (actor : ActorContext) (req : CreateDepartmentRequest) : Db Nat := do
  Prog.reject (actor.dataScope == .department || actor.dataScope == .selfOnly)
    (.forbidden "当前数据范围不允许创建下级部门")
  let code ← Prog.okOrThrow (validateCode req.code)
  let name ← Prog.okOrThrow (validateName req.name)
  let status ← Prog.okOrThrow (validateStatus (req.status.getD "active"))
  validateParent actor req.parentId none
  ensureCodeAvailable actor.organizationId code none
  beginTx
  let id ← Repositories.Departments.create actor.organizationId
    { parentId := req.parentId, code, name, status }
  Repositories.AuditLogs.record (some actor.userId) "department.create" "department" (some id)
    [("organizationId", .number actor.organizationId), ("parentId", .number req.parentId),
      ("code", .text code), ("name", .text name), ("status", .text status)]
  commitTx
  return id

theorem create_eq : create actor req = creating actor req >>= get actor := by
  simp only [create, creating, bind_assoc, Prog.pure_eq, Prog.ret_bind]

theorem created_of_ends (h : Ends n (creating actor req) ⟨none, s⟩ id c') :
    c'.tx = none ∧ Created s.store c'.server.store actor id req.parentId := by
  obtain ⟨_, c₁, hscope, hrest₁⟩ := ends_bind.1 h
  obtain ⟨_, rfl⟩ := ends_reject.1 hscope
  obtain ⟨code, c₂, hcode, hrest₂⟩ := ends_bind.1 hrest₁
  obtain ⟨_, rfl⟩ := ends_okOrThrow.1 hcode
  obtain ⟨name, c₃, hname, hrest₃⟩ := ends_bind.1 hrest₂
  obtain ⟨_, rfl⟩ := ends_okOrThrow.1 hname
  obtain ⟨status, c₄, hstatus, hrest₄⟩ := ends_bind.1 hrest₃
  obtain ⟨_, rfl⟩ := ends_okOrThrow.1 hstatus
  obtain ⟨_, c₅, hparent, hrest₅⟩ := ends_bind.1 hrest₄
  obtain ⟨rfl, _, hvisible⟩ := validateParent_ends hparent
  obtain ⟨_, c₆, hunique, hrest₆⟩ := ends_bind.1 hrest₅
  obtain rfl := ensureCodeAvailable_ends hunique
  -- the transaction
  obtain ⟨_, d, hbegin, hrest₇⟩ := ends_bind.1 hrest₆
  obtain rfl := ends_beginTx.1 hbegin
  obtain ⟨key, d₁, hcreate, hrest₈⟩ := ends_bind.1 hrest₇
  obtain ⟨hspared, hfresh, new, horg, hnew, hget⟩ := create_ends hcreate
  obtain ⟨_, d₂, hrecord, hrest₉⟩ := ends_bind.1 hrest₈
  have haudit := Repositories.AuditLogs.record_spared hrecord
  obtain ⟨_, d₃, hcommit, hret⟩ := ends_bind.1 hrest₉
  obtain ⟨rfl, rfl⟩ := ends_ret.1 hret
  obtain ⟨e, hends, hnone, hstore, _⟩ := commitTx_ends (ε := ApiError) (p := n) (c := d₂)
    (by rw [haudit.isOpen, hspared.isOpen]; rfl)
  obtain ⟨_, rfl⟩ := hends.iff.1 hcommit
  refine ⟨hnone, ?_⟩
  rw [hstore]
  have hdept : ∀ i, d₂.view.get .departments i =
      if i = id then some new else s.store.get .departments i := by
    intro i
    rw [haudit.view_get (frozen_tables (by simp)) i, hget i]
    rfl
  constructor
  · exact hvisible
  · exact hfresh
  · intro i hi
    rw [hdept i, if_neg hi]
  · exact ⟨new, by rw [hdept id, if_pos rfl], horg, hnew⟩
  · intro t ht
    rw [haudit.table t (frozen_tables fun hm => ht (by simp_all))]
    exact hspared.table t (frozen_tables fun hm => ht (by simp_all))

end Create

end Services.Departments

/-! ## Deleting a department

Two statements and three foreign keys: deleted members are taken out first, the department is
deleted if it is empty, and the tables that refer to departments have their say.
-/

/-- **The effect of deleting** the department `id`. -/
structure Deleted (σ σ' : Store Table) (actor : ActorContext) (id : Nat) : Prop where
  visible : Visible σ actor id
  notRoot : parentOf σ actor.organizationId id ≠ none
  childless : ∀ i (row : DepartmentRow), σ.get .departments i = some row → row.parentId ≠ some id
  memberless : ∀ u (row : UserRow), σ.get .users u = some row → row.departmentId = some id →
    row.deletedAt.isSome
  gone : σ'.get .departments id = none
  row : ∀ i, i ≠ id → σ'.get .departments i = σ.get .departments i
  others : ∀ u (row : UserRow), σ.get .users u = some row → row.departmentId ≠ some id →
    σ'.get .users u = some row
  former : ∀ u (row' : UserRow), σ'.get .users u = some row' → ∃ row : UserRow,
    σ.get .users u = some row ∧ row'.deletedAt = row.deletedAt ∧
      (row' = row ∧ row.departmentId ≠ some id ∨
        row.departmentId = some id ∧ row'.departmentId = none)
  table : ∀ t, t ∉ [Table.departments, .users, .auditLogs] → σ' t = σ t

namespace Repositories.Departments

section Counts

variable {s : Snap} {id : Nat}

/-- There is no department below. -/
theorem childCount_eq_zero : childCount s id = 0 ↔
    ∀ i (row : DepartmentRow), s.store.get .departments i = some row → row.parentId ≠ some id := by
  unfold childCount
  rw [List.length_eq_zero_iff, List.filter_eq_nil_iff]
  constructor
  · intro h i row hrow hparent
    exact h (i, row) (Store.mem_rows.2 hrow) (by simp [hparent])
  · intro h e he hparent
    exact h e.1 e.2 (Store.mem_rows.1 he) (by simpa using hparent)

/-- There is no live member. -/
theorem memberCount_eq_zero : memberCount s id = 0 ↔
    ∀ u (row : UserRow), s.store.get .users u = some row → row.departmentId = some id →
      row.deletedAt.isSome := by
  unfold memberCount
  rw [List.length_eq_zero_iff, List.filter_eq_nil_iff]
  constructor
  · intro h u row hrow hdept
    have hno := h (u, row) (Store.mem_rows.2 hrow)
    simpa [hdept, Option.isSome_iff_ne_none] using hno
  · intro h e he hmember
    obtain ⟨hdept, hlive⟩ := Bool.and_eq_true_iff.1 hmember
    have hdeleted := h e.1 e.2 (Store.mem_rows.1 he) (by simpa using hdept)
    rw [Option.isNone_iff_eq_none.1 hlive] at hdeleted
    cases hdeleted

/-- No foreign key refers to the department. -/
theorem isReferenced_eq_false : isReferenced s id = false ↔
    (∀ i (row : DepartmentRow), s.store.get .departments i = some row → row.parentId ≠ some id) ∧
    (∀ u (row : UserRow), s.store.get .users u = some row → row.departmentId ≠ some id) ∧
    ∀ a (row : AuditLogRow), s.store.get .auditLogs a = some row → row.departmentId ≠ some id := by
  have hall : ∀ (t : Table) (col : t.Row → Option Nat),
      ((s.store.rows t).any fun e => col e.2 == some id) = false ↔
        ∀ i row, s.store.get t i = some row → col row ≠ some id := by
    intro t col
    rw [List.any_eq_false]
    constructor
    · intro h i row hrow hcol
      exact h (i, row) (Store.mem_rows.2 hrow) (by simp [hcol])
    · intro h e he hcol
      exact h e.1 e.2 (Store.mem_rows.1 he) (by simpa using hcol)
  unfold isReferenced
  rw [Bool.or_eq_false_iff, Bool.or_eq_false_iff, and_assoc]
  exact and_congr (hall .departments fun r : DepartmentRow => r.parentId)
    (and_congr (hall .users fun r : UserRow => r.departmentId)
      (hall .auditLogs fun r : AuditLogRow => r.departmentId))

/-- The account after it has been taken out of the department. -/
def detach (id now : Nat) (row : UserRow) : UserRow :=
  if row.departmentId = some id then { row with departmentId := none, updatedAt := now } else row

theorem detach_of_ne {now : Nat} {row : UserRow} (h : row.departmentId ≠ some id) :
    detach id now row = row := if_neg h

theorem departmentId_detach {now : Nat} {row : UserRow} (h : row.departmentId = some id) :
    (detach id now row).departmentId = none := by
  rw [detach, if_pos h]

theorem deletedAt_detach (now : Nat) (row : UserRow) :
    (detach id now row).deletedAt = row.deletedAt := by
  unfold detach
  split <;> rfl

theorem departmentId_detach_ne (now : Nat) (row : UserRow) :
    (detach id now row).departmentId ≠ some id := by
  by_cases h : row.departmentId = some id
  · simp [departmentId_detach h]
  · rwa [detach_of_ne h]

end Counts

/-- **The first statement** takes the accounts that are left out of the department: in an empty one, all
of them have been deleted. -/
theorem detachDeleted_ends {n id : Nat} {c : Conn Table} (hopen : c.tx.isSome)
    (hmember : memberCount c.snapshot id = 0) : ∃ c₁ : Conn Table,
      Ends n ((detachDeletedStmt id).exec : Db _) c ((detachDeletedStmt id).rows c.snapshot) c₁ ∧
      Spared (tables [.users]) c c₁ ∧
      ∀ u, c₁.view.get .users u = (c.view.get .users u).map (detach id c.snapshot.now) := by
  have hlive := memberCount_eq_zero.1 hmember
  obtain ⟨c₁, hdetach, hspared₁, hget₁⟩ :=
    (detachDeletedStmt id).ends (ε := ApiError) (p := n) hopen
  refine ⟨c₁, hdetach, hspared₁, fun u => ?_⟩
  rw [hget₁ u]
  cases hr : c.view.get .users u with
  | none => rfl
  | some r =>
    refine congrArg some ?_
    by_cases hdept : r.departmentId = some id
    · have hcond : (detachDeletedStmt id).cond c.snapshot u r = true := by
        simp [detachDeletedStmt, hdept, hlive u r hr hdept]
      rw [detach, if_pos hdept]
      exact if_pos hcond
    · have hcond : ¬ (detachDeletedStmt id).cond c.snapshot u r = true := by
        simp [detachDeletedStmt, hdept]
      rw [detach_of_ne hdept]
      exact if_neg hcond

/-- Then the department is as empty as before, for whoever looks. -/
theorem empty_of_detached {id now : Nat} {c c₁ : Conn Table} (hspared : Spared (tables [.users]) c c₁)
    (husers : ∀ u, c₁.view.get .users u = (c.view.get .users u).map (detach id now))
    (hchild : childCount c.snapshot id = 0) :
    childCount c₁.snapshot id = 0 ∧ memberCount c₁.snapshot id = 0 := by
  constructor
  · have hrows : c₁.view.rows .departments = c.view.rows .departments :=
      hspared.view_rows (frozen_tables (by simp))
    rw [← hchild]
    unfold childCount
    exact congrArg (fun rows : List (Nat × DepartmentRow) =>
      (rows.filter fun e => e.2.parentId == some id).length) hrows
  · rw [memberCount_eq_zero]
    intro u r hr hdept
    have hr' : c₁.view.get .users u = some r := hr
    rw [husers u] at hr'
    obtain ⟨old, _, rfl⟩ := Option.map_eq_some_iff.1 hr'
    exact absurd hdept (departmentId_detach_ne _ old)

/-- **The second statement** deletes an empty department, and nothing else. -/
theorem deleteEmpty_ends {n organizationId id : Nat} {c : Conn Table} {row : DepartmentRow}
    (hopen : c.tx.isSome) (hrow : c.view.get .departments id = some row)
    (horg : row.organizationId = organizationId) (hroot : row.parentId.isSome)
    (hempty : childCount c.snapshot id = 0 ∧ memberCount c.snapshot id = 0) : ∃ c₂ : Conn Table,
      Ends n ((deleteIfEmptyStmt organizationId id).exec : Db _) c [id] c₂ ∧
      Spared (tables [.departments]) c c₂ ∧
      ∀ i, c₂.view.get .departments i = if i = id then none else c.view.get .departments i := by
  have hcond : ∀ i (r : DepartmentRow), c.view.get .departments i = some r →
      ((deleteIfEmptyStmt organizationId id).cond c.snapshot i r = true ↔ i = id) := by
    intro i r hr
    constructor
    · intro hc
      simp only [deleteIfEmptyStmt, Bool.and_eq_true, beq_iff_eq] at hc
      exact hc.1.1.1.1
    · rintro rfl
      rw [hrow] at hr
      cases hr
      simp [deleteIfEmptyStmt, horg, hroot, hempty.1, hempty.2]
  have hmatch : c.snapshot.matching .departments
      ((deleteIfEmptyStmt organizationId id).cond c.snapshot) = [id] := by
    refine Snapshot.matching_eq_singleton hrow ((hcond id row hrow).2 rfl) fun i r hr hc => ?_
    exact (hcond i r hr).1 hc
  obtain ⟨c₂, hdelete, hspared, hget⟩ :=
    (deleteIfEmptyStmt organizationId id).ends (ε := ApiError) (p := n) hopen fun _ _ _ => rfl
  rw [hmatch] at hdelete
  refine ⟨c₂, hdelete, hspared, fun i => ?_⟩
  rw [hget i]
  cases hr : c.view.get .departments i with
  | none => simp
  | some r =>
    by_cases hi : i = id
    · have hc := (hcond i r hr).2 hi
      rw [if_pos hi, Option.filter_some, hc]
      rfl
    · have hc : (deleteIfEmptyStmt organizationId id).cond c.snapshot i r = false := by
        simpa using mt (hcond i r hr).1 hi
      rw [if_neg hi, Option.filter_some, hc]
      rfl

/-- **The foreign keys** of the departments and of the accounts are satisfied then, and the one of the
audit log decides. -/
theorem isReferenced_deleted {id now : Nat} {c c₂ : Conn Table}
    (hchild : childCount c.snapshot id = 0)
    (hdept : ∀ i, c₂.view.get .departments i = if i = id then none else c.view.get .departments i)
    (husers : ∀ u, c₂.view.get .users u = (c.view.get .users u).map (detach id now))
    (haudit : ∀ a, c₂.view.get .auditLogs a = c.view.get .auditLogs a) :
    isReferenced c₂.snapshot id = false ↔
      ∀ a (r : AuditLogRow), c.view.get .auditLogs a = some r → r.departmentId ≠ some id := by
  rw [isReferenced_eq_false]
  constructor
  · rintro ⟨_, _, hfree⟩ a r hr
    exact hfree a r ((haudit a).trans hr)
  · intro hfree
    refine ⟨fun i r hr => ?_, fun u r hr => ?_, fun a r hr => hfree a r ((haudit a).symm.trans hr)⟩
    · have hr' : c₂.view.get .departments i = some r := hr
      rw [hdept i] at hr'
      split at hr'
      · cases hr'
      · exact childCount_eq_zero.1 hchild i r hr'
    · have hr' : c₂.view.get .users u = some r := hr
      rw [husers u] at hr'
      obtain ⟨old, _, rfl⟩ := Option.map_eq_some_iff.1 hr'
      exact departmentId_detach_ne _ old

/-- **`delete_if_empty`** of an empty department: the audit log decides. -/
theorem deleteIfEmpty_ends {n : Nat} {c : Conn Table} {organizationId id : Nat}
    {row : DepartmentRow} (hopen : c.tx.isSome) (hrow : c.view.get .departments id = some row)
    (horg : row.organizationId = organizationId) (hroot : row.parentId.isSome)
    (hchild : childCount c.snapshot id = 0) (hmember : memberCount c.snapshot id = 0) :
    ∃ c₂ : Conn Table, Spared (tables [.departments, .users]) c c₂ ∧
      (∀ i, c₂.view.get .departments i = if i = id then none else c.view.get .departments i) ∧
      (∀ u, c₂.view.get .users u = (c.view.get .users u).map (detach id c.snapshot.now)) ∧
      ∀ b c', Ends n (deleteIfEmpty organizationId id) c b c' ↔ b = true ∧ c' = c₂ ∧
        ∀ a (r : AuditLogRow), c.view.get .auditLogs a = some r → r.departmentId ≠ some id := by
  obtain ⟨c₁, hdetach, hspared₁, husers₁⟩ := detachDeleted_ends (n := n) hopen hmember
  have hdept₁ : ∀ i, c₁.view.get .departments i = c.view.get .departments i :=
    fun i => hspared₁.view_get (t := .departments) (frozen_tables (by simp)) i
  obtain ⟨c₂, hdelete, hspared₂, hdept₂⟩ := deleteEmpty_ends (n := n)
    (hspared₁.isOpen.trans hopen) ((hdept₁ id).trans hrow) horg hroot
    (empty_of_detached hspared₁ husers₁ hchild)
  have hdept : ∀ i, c₂.view.get .departments i =
      if i = id then none else c.view.get .departments i := by
    intro i
    rw [hdept₂ i, hdept₁ i]
  have husers : ∀ u, c₂.view.get .users u = (c.view.get .users u).map (detach id c.snapshot.now) :=
    fun u => (hspared₂.view_get (frozen_tables (by simp)) u).trans (husers₁ u)
  have haudit : ∀ a, c₂.view.get .auditLogs a = c.view.get .auditLogs a := by
    intro a
    rw [hspared₂.view_get (frozen_tables (by simp)) a, hspared₁.view_get (frozen_tables (by simp)) a]
  refine ⟨c₂, ?_, hdept, husers, fun b c' => ?_⟩
  · exact (hspared₁.mono fun t _ _ _ _ ht => by simp_all [tables]).trans
      (hspared₂.mono fun t _ _ _ _ ht => by simp_all [tables])
  rw [← isReferenced_deleted hchild hdept husers haudit]
  constructor
  · -- the run is the one of the two statements, and `restrict` has let it pass
    intro h
    obtain ⟨_, d, hd, hrest⟩ := ends_bind.1 h
    obtain ⟨_, rfl⟩ := hdetach.iff.1 hd
    obtain ⟨deleted, d₂, hd₂, hrest₂⟩ := ends_bind.1 hrest
    obtain ⟨rfl, rfl⟩ := hdelete.iff.1 hd₂
    obtain ⟨_, d₃, hrestrict, hret⟩ := ends_bind.1 hrest₂
    obtain ⟨rfl, rfl⟩ := ends_ret.1 hret
    obtain ⟨_, d₄, hcheck, hnil⟩ := ends_bind.1 hrestrict
    obtain ⟨snap, d₅, hsnap, hreject⟩ := ends_bind.1 hcheck
    obtain ⟨rfl, rfl⟩ := ends_query.1 hsnap
    obtain ⟨hfalse, rfl⟩ := ends_reject.1 hreject
    obtain ⟨_, rfl⟩ := ends_ret.1 hnil
    exact ⟨rfl, rfl, hfalse⟩
  · rintro ⟨rfl, rfl, hfalse⟩
    have hrestrict : Ends n (restrict [id]) c' () c' :=
      ends_bind.2 ⟨(), c', ends_bind.2 ⟨_, _, ends_query.2 ⟨rfl, rfl⟩,
        ends_reject.2 ⟨hfalse, rfl⟩⟩, ends_ret.2 ⟨rfl, rfl⟩⟩
    exact ends_bind.2 ⟨_, _, hdetach, ends_bind.2 ⟨_, _, hdelete,
      ends_bind.2 ⟨_, _, hrestrict, ends_ret.2 ⟨rfl, rfl⟩⟩⟩⟩

end Repositories.Departments

namespace Services.Departments

section Delete

variable {n : Nat} {s : Server Table} {c' : Conn Table} {actor : ActorContext} {id : Nat}

/-- **What a successful deletion has checked, and what it has done.** -/
theorem deleted_of_ends (h : Ends n (delete actor id) ⟨none, s⟩ () c') :
    c'.tx = none ∧ Deleted s.store c'.server.store actor id ∧
      ∀ a (row : AuditLogRow), s.store.get .auditLogs a = some row →
        row.departmentId ≠ some id := by
  obtain ⟨o, c₁, hfind, hrest₁⟩ := ends_bind.1 h
  obtain ⟨current, c₂, hcurrent, hrest₂⟩ := ends_bind.1 hrest₁
  obtain ⟨rfl, rfl⟩ := ends_okOr.1 hcurrent
  obtain ⟨rfl, _, hrow, hvisible, hmembers, hchildren⟩ := found_of_ends hfind
  obtain ⟨_, c₃, hroot, hrest₃⟩ := ends_bind.1 hrest₂
  obtain ⟨hroot, rfl⟩ := ends_reject.1 hroot
  obtain ⟨_, c₄, hchild, hrest₄⟩ := ends_bind.1 hrest₃
  obtain ⟨hchild, rfl⟩ := ends_reject.1 hchild
  obtain ⟨_, c₅, hmember, hrest₅⟩ := ends_bind.1 hrest₄
  obtain ⟨hmember, rfl⟩ := ends_reject.1 hmember
  have horg : current.row.organizationId = actor.organizationId := by
    obtain ⟨row, hrow', horg⟩ := hvisible.belongs
    rw [hrow] at hrow'
    cases hrow'
    exact horg
  have hchild₀ : childCount (committed s) id = 0 := by
    rw [← hchildren]
    simpa using hchild
  have hmember₀ : memberCount (committed s) id = 0 := by
    rw [← hmembers]
    simpa using hmember
  -- the transaction
  obtain ⟨_, d, hbegin, hrest₆⟩ := ends_bind.1 hrest₅
  obtain rfl := ends_beginTx.1 hbegin
  obtain ⟨d₁, hspared, hdept, husers, hends⟩ := deleteIfEmpty_ends (n := n)
    (c := (⟨none, s⟩ : Conn Table).begun) rfl hrow horg
    (by simpa [Option.isSome_iff_ne_none] using hroot) hchild₀ hmember₀
  obtain ⟨deleted, d₂, hdelete, hrest₇⟩ := ends_bind.1 hrest₆
  obtain ⟨rfl, rfl, haudit⟩ := (hends _ _).1 hdelete
  obtain ⟨_, d₃, hreject, hrest₈⟩ := ends_bind.1 hrest₇
  obtain ⟨_, rfl⟩ := ends_reject.1 hreject
  obtain ⟨_, d₄, hrecord, hcommit⟩ := ends_bind.1 hrest₈
  have hlast := Repositories.AuditLogs.record_spared hrecord
  obtain ⟨e, hcommitted, hnone, hstore, _⟩ := commitTx_ends (ε := ApiError) (p := n) (c := d₄)
    (by rw [hlast.isOpen, hspared.isOpen]; rfl)
  obtain ⟨_, rfl⟩ := hcommitted.iff.1 hcommit
  have hdept₄ : ∀ i, d₄.view.get .departments i =
      if i = id then none else s.store.get .departments i := by
    intro i
    rw [hlast.view_get (frozen_tables (by simp)) i, hdept i]
    rfl
  have husers₄ : ∀ u, d₄.view.get .users u =
      (s.store.get .users u).map (detach id (committed s).now) := by
    intro u
    rw [hlast.view_get (frozen_tables (by simp)) u, husers u]
    rfl
  refine ⟨hnone, ?_, haudit⟩
  rw [hstore]
  constructor
  · exact hvisible
  · rw [parentOf_eq hrow horg]
    simpa [Option.isSome_iff_ne_none] using hroot
  · exact childCount_eq_zero.1 hchild₀
  · exact memberCount_eq_zero.1 hmember₀
  · rw [hdept₄ id, if_pos rfl]
  · intro i hi
    rw [hdept₄ i, if_neg hi]
  · intro u row hu hne
    rw [husers₄ u, hu, Option.map_some, detach_of_ne hne]
  · intro u row' hu
    rw [husers₄ u] at hu
    obtain ⟨row, hrow, rfl⟩ := Option.map_eq_some_iff.1 hu
    refine ⟨row, hrow, deletedAt_detach _ row, ?_⟩
    by_cases hdept : row.departmentId = some id
    · exact .inr ⟨hdept, departmentId_detach hdept⟩
    · exact .inl ⟨detach_of_ne hdept, hdept⟩
  · intro t ht
    rw [hlast.table t (frozen_tables fun hm => ht (by simp_all))]
    exact hspared.table t (frozen_tables fun hm => ht (by simp_all))

end Delete

end Services.Departments

/-! ## Assigning a department

The check that both services of accounts make.
-/

/-- The department may be given to an account by the actor: it is visible and active. -/
def Assignable (σ : Store Table) (actor : ActorContext) (id : Nat) : Prop :=
  Visible σ actor id ∧ ∃ row : DepartmentRow, σ.get .departments id = some row ∧
    row.status = "active"

section Assignment

variable {n : Nat} {c c' : Conn Table} {actor : ActorContext}

/-- **`validate_assignment`** passes for assignable departments only. -/
theorem validateAssignment_ends {departmentId : Nat}
    (h : Ends n (Services.Departments.validateAssignment actor departmentId) c () c') :
    c' = c ∧ Assignable c.server.store actor departmentId := by
  obtain ⟨o, c₁, hfind, hrest⟩ := ends_bind.1 h
  obtain ⟨row, c₂, hrow, hactive⟩ := ends_bind.1 hrest
  obtain ⟨rfl, rfl⟩ := ends_okOr.1 hrow
  obtain ⟨hstatus, rfl⟩ := ends_reject.1 hactive
  obtain ⟨s, c₃, hs, hrest₂⟩ := ends_bind.1 hfind
  obtain ⟨rfl, rfl⟩ := ends_poolQuery.1 hs
  obtain ⟨rows, c₄, hrows, hret⟩ := ends_bind.1 hrest₂
  obtain ⟨hvisible, rfl⟩ := ends_okOr.1 hrows
  obtain ⟨hfound, rfl⟩ := ends_ret.1 hret
  obtain ⟨e, he, rfl⟩ := Option.map_eq_some_iff.1 hfound.symm
  obtain ⟨_, hget, hsees⟩ := (find?_visible (s := committed c'.server) hvisible).1 he
  exact ⟨rfl, hsees, e.2, hget, by simpa using hstatus⟩

theorem referencesDepartment_ends {departmentId : Option Nat} {organizationId : Nat}
    (hopen : c.tx.isSome)
    (h : Ends n (Repositories.Users.referencesDepartment departmentId organizationId) c () c') :
    (∀ d, departmentId = some d → Belongs c.view organizationId d) ∧ Spared (tables []) c c' := by
  cases departmentId with
  | none =>
    obtain ⟨_, rfl⟩ := ends_ret.1 h
    refine ⟨fun d hd => ?_, Spared.refl _⟩
    cases hd
  | some id =>
    obtain ⟨row, hrow, horg⟩ := (ends_references hopen).1 ⟨c', h⟩
    refine ⟨fun d hd => ?_, references_spared h⟩
    cases hd
    exact ⟨row, hrow, by simpa using horg⟩

end Assignment

/-! ## Creating an account

The checks are made before the transaction, which inserts the row and its roles.
-/

/-- **The effect of a new account** `id`. -/
structure Joined (σ σ' : Store Table) (actor : ActorContext) (id : Nat)
    (departmentId : Option Nat) : Prop where
  fresh : σ.get .users id = none
  row : ∀ i, i ≠ id → σ'.get .users i = σ.get .users i
  joined : ∃ new : UserRow, σ'.get .users id = some new ∧
    new.organizationId = actor.organizationId ∧ new.departmentId = departmentId ∧
    new.deletedAt = none
  belongs : ∀ d, departmentId = some d → Belongs σ actor.organizationId d
  roles : ∀ u roleId : Nat, u ≠ id →
    σ'.get .userRoles (u, roleId) = σ.get .userRoles (u, roleId)
  table : ∀ t, t ∉ [Table.users, .userRoles, .auditLogs] → σ' t = σ t

/-- Any change of the roles of one account, and of nothing else. -/
def rolesOfAccount (userId : Nat) : Change Table
  | .userRoles, id, _, _, _ => id.1 = userId
  | _, _, _, _, _ => False

theorem Repositories.Users.create_ends {n : Nat} {c c' : Conn Table} {user : NewUser}
    {found : Found} (h : Ends n (create user) c found c') :
    Spared (tables [.users]) c c' ∧ c.view.get .users found.id = none ∧
      (∀ i, c'.view.get .users i = if i = found.id then some found.row else c.view.get .users i) ∧
      (found.row.organizationId = user.organizationId ∧
        found.row.departmentId = user.departmentId ∧ found.row.deletedAt = none) ∧
      ∀ d, user.departmentId = some d → Belongs c.view user.organizationId d := by
  obtain ⟨s, c₁, hs, hrest⟩ := ends_bind.1 h
  obtain ⟨rfl, rfl⟩ := ends_query.1 hs
  obtain ⟨key, c₂, hinsert, hrest₂⟩ := ends_bind.1 hrest
  obtain ⟨hopen, hnone, _, hspared, hget⟩ := Insert.of_ends hinsert
  have hopen₂ : c₂.tx.isSome := hspared.isOpen.trans hopen
  obtain ⟨_, c₃, horg, hrest₃⟩ := ends_bind.1 hrest₂
  have hsame₃ := references_spared horg
  obtain ⟨_, c₄, hdept, hret⟩ := ends_bind.1 hrest₃
  obtain ⟨rfl, rfl⟩ := ends_ret.1 hret
  obtain ⟨hbelongs, hsame₄⟩ := referencesDepartment_ends (hsame₃.isOpen.trans hopen₂) hdept
  have hsame := hsame₃.trans hsame₄
  refine ⟨hspared.trans (hsame.mono fun t _ _ _ _ ht => by cases ht), hnone, ?_,
    ⟨rfl, rfl, rfl⟩, fun d hd => ?_⟩
  · rw [hsame.view_eq]
    exact hget
  · obtain ⟨row, hrow, horg'⟩ := hbelongs d hd
    rw [hsame₃.view_eq, hspared.view_get (frozen_tables (by simp))] at hrow
    exact ⟨row, hrow, horg'⟩

namespace Services.Users

section Create

variable {n : Nat} {s : Server Table} {c' : Conn Table} {env : External} {actor : ActorContext}
  {req : CreateUserRequest} {canGrantSuperAdmin canAssignDepartment : Bool}

/-- What a creation checks before its transaction; the result is the hash of the password. -/
def checkCreate (env : External) (actor : ActorContext) (req : CreateUserRequest)
    (canGrantSuperAdmin canAssignDepartment : Bool) : Db String := do
  Prog.reject (!actor.canCreatePeer) (.forbidden "当前数据范围不允许创建其他用户")
  Prog.reject (!(3 ≤ byteLen (trim req.username) && byteLen (trim req.username) ≤ 64))
    (.validation "用户名长度需在 3-64 个字符之间")
  Prog.reject (!(trim req.username).toList.all fun c => isAsciiAlphanumeric c || c == '_' || c == '-')
    (.validation "用户名仅允许字母、数字、下划线或连字符")
  Auth.validatePassword req.password
  Prog.reject (isEmpty (trim req.displayName) || byteLen (trim req.displayName) > 128)
    (.validation "显示名称长度需在 1-128 个字符之间")
  Prog.reject (!validStatuses.contains (req.status.getD "active"))
    (.validation "状态只能为启用、停用或已暂停")
  let hash ← Auth.hashPassword env req.password
  Prog.ifSome req.roleIds fun roleIds =>
    validateRoleGrantScope (some actor.userId) roleIds canGrantSuperAdmin
  Prog.ifSome req.departmentId fun departmentId => do
    Prog.reject (!canAssignDepartment) (.forbidden "缺少查看部门目录的权限")
    Departments.validateAssignment actor departmentId
  return hash

/-- The transaction of a creation. -/
def commitCreate (actor : ActorContext) (req : CreateUserRequest) (hash : String) :
    Db Repositories.Users.Found := do
  let departmentId := req.departmentId.or actor.departmentId
  beginTx
  let row ← Repositories.Users.create
    { username := trim req.username, passwordHash := hash, displayName := trim req.displayName
      email := req.email, status := req.status.getD "active"
      organizationId := actor.organizationId, departmentId }
  Prog.ifSome req.roleIds fun roleIds => do
    let _ ← Repositories.Users.assignRoles row.id roleIds
  Repositories.AuditLogs.record (some actor.userId) "user.create" "user" (some row.id)
    [("username", .text (trim req.username)), ("status", .text (req.status.getD "active")),
      ("departmentId", departmentId.elim .null .number),
      ("roleIds", .numbers (req.roleIds.getD []))]
  commitTx
  return row

theorem create_eq : create env actor req canGrantSuperAdmin canAssignDepartment =
    (checkCreate env actor req canGrantSuperAdmin canAssignDepartment >>= fun hash =>
      commitCreate actor req hash >>= fun row => do
        let roles ← Repositories.Users.roleNamesByUser row.id
        return userResponse row.id row.row roles) := by
  simp only [create, checkCreate, commitCreate, bind_assoc, Prog.pure_eq, Prog.ret_bind]

theorem checkCreate_ends {hash : String} (h : Ends n
    (checkCreate env actor req canGrantSuperAdmin canAssignDepartment) ⟨none, s⟩ hash c') :
    Spared (tables []) ⟨none, s⟩ c' ∧ ∀ d, req.departmentId = some d →
      Assignable s.store actor d := by
  obtain ⟨_, c₁, hr₁, hrest₁⟩ := ends_bind.1 h
  obtain ⟨_, rfl⟩ := ends_reject.1 hr₁
  obtain ⟨_, c₂, hr₂, hrest₂⟩ := ends_bind.1 hrest₁
  obtain ⟨_, rfl⟩ := ends_reject.1 hr₂
  obtain ⟨_, c₃, hr₃, hrest₃⟩ := ends_bind.1 hrest₂
  obtain ⟨_, rfl⟩ := ends_reject.1 hr₃
  obtain ⟨_, c₄, hr₄, hrest₄⟩ := ends_bind.1 hrest₃
  obtain ⟨_, rfl⟩ := ends_reject.1 hr₄
  obtain ⟨_, c₅, hr₅, hrest₅⟩ := ends_bind.1 hrest₄
  obtain ⟨_, rfl⟩ := ends_reject.1 hr₅
  obtain ⟨_, c₆, hr₆, hrest₆⟩ := ends_bind.1 hrest₅
  obtain ⟨_, rfl⟩ := ends_reject.1 hr₆
  obtain ⟨_, c₇, hhash, hrest₇⟩ := ends_bind.1 hrest₆
  have hsame₁ := hhash.spared_nothing fun _ => Auth.hashPassword_within _ _
  obtain ⟨_, c₈, hroles, hrest₈⟩ := ends_bind.1 hrest₇
  have hsame₂ := hroles.spared_nothing fun _ =>
    ifSome fun _ => validateRoleGrantScope_within _ _ _
  have hpre := hsame₁.trans hsame₂
  obtain ⟨_, c₉, hdept, hret⟩ := ends_bind.1 hrest₈
  obtain ⟨rfl, rfl⟩ := ends_ret.1 hret
  rcases ends_ifSome.1 hdept with ⟨d, hd, hcheck⟩ | ⟨hnone, rfl⟩
  · obtain ⟨_, c₁₀, hcan, hassign⟩ := ends_bind.1 hcheck
    obtain ⟨_, rfl⟩ := ends_reject.1 hcan
    obtain ⟨rfl, hassignable⟩ := validateAssignment_ends hassign
    refine ⟨hpre, fun d' hd' => ?_⟩
    rw [hd] at hd'
    cases hd'
    rwa [hpre.store] at hassignable
  · exact ⟨hpre, fun d hd => by simp [hnone] at hd⟩

theorem commitCreate_ends {hash : String} {c : Conn Table} {row : Repositories.Users.Found}
    (h : Ends n (commitCreate actor req hash) c row c') :
    c'.tx = none ∧ Joined c.server.store c'.server.store actor row.id
      (req.departmentId.or actor.departmentId) := by
  obtain ⟨_, d, hbegin, hrest₁⟩ := ends_bind.1 h
  obtain rfl := ends_beginTx.1 hbegin
  obtain ⟨found, d₁, hcreate, hrest₂⟩ := ends_bind.1 hrest₁
  obtain ⟨hspared, hfresh, hget, ⟨horg, hdept, hlive⟩, hbelongs⟩ :=
    Repositories.Users.create_ends hcreate
  obtain ⟨_, d₂, hroles, hrest₃⟩ := ends_bind.1 hrest₂
  have hassigned : Spared (tables [.userRoles]) d₁ d₂ := hroles.spared
    (ifSome fun _ => .bind (Repositories.Users.assignRoles_within (free_tables (by simp)) _ _)
      fun _ => .ret)
  obtain ⟨_, d₃, hrecord, hrest₄⟩ := ends_bind.1 hrest₃
  -- the audit record touches its own table only
  have haudit := Repositories.AuditLogs.record_spared hrecord
  obtain ⟨_, d₄, hcommit, hret⟩ := ends_bind.1 hrest₄
  obtain ⟨rfl, rfl⟩ := ends_ret.1 hret
  obtain ⟨e, hends, hnone, hstore, _⟩ := commitTx_ends (ε := ApiError) (p := n) (c := d₃)
    (by rw [haudit.isOpen, hassigned.isOpen, hspared.isOpen]; rfl)
  obtain ⟨_, rfl⟩ := hends.iff.1 hcommit
  refine ⟨hnone, ?_⟩
  rw [hstore]
  -- the roles and the record come after the row, and keep it
  have husers : ∀ i, d₃.view.get .users i =
      if i = row.id then some row.row else c.server.store.get .users i := by
    intro i
    rw [haudit.view_get (frozen_tables (by simp)) i,
      hassigned.view_get (frozen_tables (by simp)) i, hget i]
    rfl
  constructor
  · exact hfresh
  · intro i hi
    rw [husers i, if_neg hi]
  · exact ⟨row.row, by rw [husers row.id, if_pos rfl], horg, hdept, hlive⟩
  · exact hbelongs
  · intro u roleId hu
    -- only links of the new account are written
    have hother : d₂.view.get .userRoles (u, roleId) = d₁.view.get .userRoles (u, roleId) := by
      rcases ends_ifSome.1 hroles with ⟨roleIds, _, hassign⟩ | ⟨_, rfl⟩
      · exact hassign.get_eq (.bind (Repositories.Users.assignRoles_within_user (φ := rolesOfAccount row.id)
            (fun _ _ _ _ h => h) _) fun _ => .ret)
          fun _ _ => hu
      · rfl
    rw [haudit.view_get (frozen_tables (by simp)), hother,
      hspared.view_get (frozen_tables (by simp))]
    rfl
  · intro t ht
    rw [haudit.table t (frozen_tables fun hm => ht (by simp_all)),
      hassigned.table t (frozen_tables fun hm => ht (by simp_all))]
    exact hspared.table t (frozen_tables fun hm => ht (by simp_all))

/-- **What a successful creation has checked, and what it has done.** -/
theorem joined_of_ends {response : UserResponse} (h : Ends n
    (create env actor req canGrantSuperAdmin canAssignDepartment) ⟨none, s⟩ response c') :
    c'.tx = none ∧ (∀ d, req.departmentId = some d → Assignable s.store actor d) ∧
      ∃ id, Joined s.store c'.server.store actor id (req.departmentId.or actor.departmentId) := by
  rw [create_eq] at h
  obtain ⟨hash, c₁, hcheck, hrest⟩ := ends_bind.1 h
  obtain ⟨hpre, hassignable⟩ := checkCreate_ends hcheck
  obtain ⟨row, c₂, hcommit, hread⟩ := ends_bind.1 hrest
  obtain ⟨hnone, hjoined⟩ := commitCreate_ends hcommit
  have hlast := hread.spared_nothing fun _ =>
    .bind (Repositories.Users.roleNamesByUser_within _) fun _ => .ret
  refine ⟨hlast.tx_none hnone, hassignable, row.id, ?_⟩
  rw [hlast.store]
  rwa [hpre.store] at hjoined

end Create

end Services.Users

/-! ## Changing an account

The same for an update, which may revoke the sessions of the account as well.
-/

/-- **The effect of an update** of the account `id`. -/
structure Edited (σ σ' : Store Table) (id : Nat) (departmentId : Option Nat) : Prop where
  row : ∀ i, i ≠ id → σ'.get .users i = σ.get .users i
  edited : ∃ old new : UserRow, σ.get .users id = some old ∧ σ'.get .users id = some new ∧
    old.deletedAt = none ∧ new.deletedAt = none ∧ new.organizationId = old.organizationId ∧
    new.departmentId = departmentId.or old.departmentId ∧
    ∀ d, departmentId = some d → Belongs σ old.organizationId d

/-- Departments are looked up in their table. -/
theorem Repositories.Departments.Belongs.congr {σ σ' : Store Table} {organizationId id : Nat}
    (h : σ' .departments = σ .departments) (hb : Belongs σ' organizationId id) :
    Belongs σ organizationId id := by
  unfold Belongs Store.get at hb ⊢
  rwa [h] at hb

/-- Two updates of one account, the second of which may give it a department. -/
theorem Edited.trans {σ σ₁ σ₂ : Store Table} {id : Nat} {departmentId : Option Nat}
    (h : Edited σ σ₁ id none) (h' : Edited σ₁ σ₂ id departmentId)
    (hdept : σ₁ .departments = σ .departments) : Edited σ σ₂ id departmentId where
  row i hi := (h'.row i hi).trans (h.row i hi)
  edited := by
    obtain ⟨old, mid, hold, hmid, hlive, _, horg, hsame, _⟩ := h.edited
    obtain ⟨mid', new, hmid', hnew, _, hlive', horg', hset, hbelongs⟩ := h'.edited
    rw [hmid] at hmid'
    cases hmid'
    refine ⟨old, new, hold, hnew, hlive, hlive', horg'.trans horg, ?_, fun d hd => ?_⟩
    · rw [hset, hsame, Option.none_or]
    · rw [← horg]
      exact (hbelongs d hd).congr hdept

namespace Repositories.Users

section Statements

variable {n : Nat} {c c' : Conn Table} {id : Nat}

/-- **`UPDATE users … WHERE id = … AND deleted_at IS NULL`.** -/
theorem updateOne_ends (u : Update Table .users)
    (hcond : ∀ s i (row : UserRow), u.cond s i row = (i == id && row.deletedAt.isNone))
    (hopen : c.tx.isSome) : ∃ c₁, Ends n (u.exec : Db _) c (u.rows c.snapshot) c₁ ∧
      Spared (tables [.users]) c c₁ ∧
      (∀ i, i ≠ id → c₁.view.get .users i = c.view.get .users i) ∧
      ((∃ row : UserRow, c.view.get .users id = some row ∧ row.deletedAt = none ∧
          c₁.view.get .users id = some (u.set c.snapshot row) ∧
          u.rows c.snapshot = [u.set c.snapshot row]) ∨
        (∀ row : UserRow, c.view.get .users id = some row → row.deletedAt.isSome) ∧
          c₁.view = c.view ∧ u.rows c.snapshot = []) := by
  obtain ⟨c₁, hends, hspared, hget⟩ := u.ends (ε := ApiError) (p := n) hopen
  have hother : ∀ i, i ≠ id → c₁.view.get .users i = c.view.get .users i := by
    intro i hi
    rw [hget i]
    cases c.view.get .users i with
    | none => rfl
    | some r => simp [hcond, hi]
  by_cases hlive : ∃ row : UserRow, c.view.get .users id = some row ∧ row.deletedAt = none
  · obtain ⟨row, hrow, hnone⟩ := hlive
    have hsat : u.cond c.snapshot id row = true := by simp [hcond, hnone]
    have hsel : c.snapshot.selected .users (u.cond c.snapshot) = [(id, row)] := by
      refine Snapshot.selected_eq_singleton hrow hsat fun i r hi => ?_
      rw [hcond] at hi
      simpa using (Bool.and_eq_true_iff.1 hi).1
    refine ⟨c₁, hends, hspared, hother, .inl ⟨row, hrow, hnone, ?_, ?_⟩⟩
    · rw [hget id, hrow, Option.map_some, if_pos hsat]
    · rw [Update.rows, hsel]
      rfl
  · have hdeleted : ∀ row : UserRow, c.view.get .users id = some row → row.deletedAt.isSome := by
      intro row hrow
      by_contra hsome
      exact hlive ⟨row, hrow, by simpa using hsome⟩
    have hsel : c.snapshot.selected .users (u.cond c.snapshot) = [] := by
      refine Snapshot.selected_eq_nil fun i r hr => ?_
      rw [hcond, Bool.and_eq_false_iff]
      by_cases hi : i = id
      · subst hi
        have hsome := hdeleted r hr
        exact .inr (by simpa [Option.isSome_iff_ne_none] using hsome)
      · exact .inl (by simpa using hi)
    have hrows : u.rows c.snapshot = [] := by rw [Update.rows, hsel]; rfl
    -- nothing is selected, so nothing is visited
    have hsame : Ends n (u.exec : Db _) c [] c := by
      refine ends_bind.2 ⟨_, _, ends_query.2 ⟨rfl, rfl⟩, ?_⟩
      unfold Update.execOn
      rw [Snapshot.matching_eq, hsel]
      exact ends_ret.2 ⟨rfl, rfl⟩
    have heq : c₁ = c := (hsame.iff.1 hends).2
    exact ⟨c₁, hends, hspared, hother, .inr ⟨hdeleted, by rw [heq], hrows⟩⟩

theorem updatePassword_ends {passwordHash : String} {row : UserRow} (hopen : c.tx.isSome)
    (h : Ends n (updatePassword id passwordHash) c (some row) c') :
    Spared (tables [.users]) c c' ∧ Edited c.view c'.view id none := by
  obtain ⟨rows, c₁, hexec, hret⟩ := ends_bind.1 h
  obtain ⟨hhead, rfl⟩ := ends_ret.1 hret
  obtain ⟨c₁, hends, hspared, hother, hcase⟩ :=
    updateOne_ends (n := n) (updatePasswordStmt id passwordHash) (fun _ _ _ => rfl) hopen
  obtain ⟨rfl, rfl⟩ := hends.iff.1 hexec
  rcases hcase with ⟨old, hold, hlive, hnew, _⟩ | ⟨_, _, hnil⟩
  · refine ⟨hspared, hother, old, _, hold, hnew, hlive, hlive, rfl, rfl, fun d hd => ?_⟩
    cases hd
  · rw [hnil] at hhead
    cases hhead

theorem updateProfile_ends {displayName : Option String} {emailIsSet : Bool}
    {email status : Option String} {departmentId : Option Nat} {row : UserRow}
    (hopen : c.tx.isSome)
    (h : Ends n (updateProfile id displayName emailIsSet email status departmentId) c (some row) c') :
    Spared (tables [.users]) c c' ∧ Edited c.view c'.view id departmentId := by
  obtain ⟨rows, c₁, hexec, hrest⟩ := ends_bind.1 h
  obtain ⟨c₁, hends, hspared, hother, hcase⟩ :=
    updateOne_ends (n := n)
      (updateProfileStmt id displayName emailIsSet email status departmentId)
      (fun _ _ _ => rfl) hopen
  obtain ⟨rfl, rfl⟩ := hends.iff.1 hexec
  rcases hcase with ⟨old, hold, hlive, hnew, hrows⟩ | ⟨_, _, hnil⟩
  · rw [hrows] at hrest
    obtain ⟨_, c₂, hfk, hret⟩ := ends_bind.1 hrest
    obtain ⟨hrow, rfl⟩ := ends_ret.1 hret
    cases hrow
    have hopen₁ : c₁.tx.isSome := hspared.isOpen.trans hopen
    have hcheck : Spared (tables []) c₁ c' ∧ ∀ d, departmentId = some d →
        Belongs c₁.view old.organizationId d := by
      rcases ends_whenever.1 hfk with ⟨_, href⟩ | ⟨hnone, rfl⟩
      · obtain ⟨hbelongs, hsame⟩ := referencesDepartment_ends hopen₁ href
        exact ⟨hsame, fun d hd => hbelongs d (by simp [updateProfileStmt, hd])⟩
      · refine ⟨Spared.refl _, fun d hd => ?_⟩
        rw [hd] at hnone
        cases hnone
    have hview := hcheck.1.view_eq
    refine ⟨hspared.trans (hcheck.1.mono fun t _ _ _ _ ht => by cases ht), ?_, ?_⟩
    · rw [hview]
      exact hother
    · rw [hview]
      exact ⟨old, _, hold, hnew, hlive, hlive, rfl, rfl, fun d hd =>
        (hcheck.2 d hd).congr (hspared.table _ (frozen_tables (by simp)))⟩
  · rw [hnil] at hrest
    obtain ⟨hrow, _⟩ := ends_ret.1 hrest
    cases hrow

end Statements

end Repositories.Users

namespace Services.Users

section Update

variable {n : Nat} {s : Server Table} {c c' : Conn Table} {env : External} {actor : ActorContext}
  {id : Nat} {req : UpdateUserRequest} {canGrantSuperAdmin canAssignDepartment : Bool}

theorem applyUpdate_ends {passwordHash displayName : Option String} {emailIsSet : Bool}
    {email : Option String} {row : UserRow} (hopen : c.tx.isSome)
    (h : Ends n (applyUpdate id req passwordHash displayName emailIsSet email) c (some row) c') :
    Spared (tables [.users]) c c' ∧ Edited c.view c'.view id req.departmentId := by
  obtain ⟨_, c₁, hguard, hrest⟩ := ends_bind.1 h
  have hsame := hguard.spared_nothing fun _ => whenever (protectLastSuperAdmin_within id)
  have hopen₁ : c₁.tx.isSome := hsame.isOpen.trans hopen
  obtain ⟨_, c₂, hpassword, hprofile⟩ := ends_bind.1 hrest
  have hfirst : Spared (tables [.users]) c₁ c₂ ∧ (Edited c₁.view c₂.view id none ∨ c₂ = c₁) := by
    rcases ends_ifSome.1 hpassword with ⟨hash, _, hset⟩ | ⟨_, rfl⟩
    · obtain ⟨o, c₃, hstmt, hreject⟩ := ends_bind.1 hset
      obtain ⟨hsome, rfl⟩ := ends_reject.1 hreject
      obtain ⟨row', rfl⟩ := Option.isSome_iff_exists.1 (Option.isNone_eq_false_iff.1 hsome)
      obtain ⟨hspared, hedited⟩ := Repositories.Users.updatePassword_ends hopen₁ hstmt
      exact ⟨hspared, .inl hedited⟩
    · exact ⟨.refl _, .inr rfl⟩
  obtain ⟨hspared, hedited⟩ :=
    Repositories.Users.updateProfile_ends (hfirst.1.isOpen.trans hopen₁) hprofile
  have hall := (hsame.mono fun t _ _ _ _ ht => by cases ht).trans (hfirst.1.trans hspared)
  refine ⟨hall, ?_⟩
  rw [← hsame.view_eq]
  rcases hfirst.2 with hset | rfl
  · exact hset.trans hedited (hfirst.1.table _ (frozen_tables (by simp)))
  · exact hedited

/-- The changes of the sessions of one account, and of audit records. -/
def sessionsOfAccount (userId : Nat) : Change Table
  | .authSessions, _, old, _, _ => ∃ row : SessionRow, old = some row ∧ row.userId = userId
  | .auditLogs, _, _, _, _ => True
  | _, _, _, _, _ => False

theorem revoke_within_account (userId : Nat) (actorUserId : Option Nat) (reason : String) :
    (Repositories.AuthSessions.revokeAllForUser userId >>= fun revoked =>
      Auth.recordSessionRevocation actorUserId userId reason revoked.count).All
        (Act.Within (sessionsOfAccount userId)) := by
  refine .bind (.bind query_within fun s => .bind (Prog.All.updateOn fun id row h => ?_) fun _ =>
    .ret) fun _ => Auth.recordSessionRevocation_within (fun _ _ _ _ => trivial) _ _ _ _
  exact ⟨row, rfl, eq_of_beq (Bool.and_eq_true_iff.1 h).1⟩

/-- The transaction of an update. -/
def commitUpdate (id : Nat) (actorUserId : Option Nat) (req : UpdateUserRequest)
    (passwordHash displayName : Option String) (emailIsSet : Bool) (email : Option String) :
    Db UserRow := do
  let statusRevokesSessions := req.status.any (· != "active")
  beginTx
  let row ← applyUpdate id req passwordHash displayName emailIsSet email
  let row ← Prog.okOr row (.notFound "用户不存在")
  Prog.whenever (passwordHash.isSome || statusRevokesSessions) do
    let revoked ← Repositories.AuthSessions.revokeAllForUser id
    Auth.recordSessionRevocation actorUserId id
      (if passwordHash.isSome then "admin_password_reset" else "account_status_changed") revoked.count
  Repositories.AuditLogs.record actorUserId "user.update" "user" (some id)
    [("displayNameChanged", .bool req.displayName.isSome),
      ("emailChanged", .bool (req.email != .missing)),
      ("status", req.status.elim .null .text),
      ("departmentId", req.departmentId.elim .null .number),
      ("passwordReset", .bool req.password.isSome)]
  commitTx
  return row

theorem commitUpdate_ends {actorUserId : Option Nat} {passwordHash displayName : Option String}
    {emailIsSet : Bool} {email : Option String} {row : UserRow}
    (h : Ends n (commitUpdate id actorUserId req passwordHash displayName emailIsSet email) c row c') :
    c'.tx = none ∧ Edited c.server.store c'.server.store id req.departmentId ∧
      (∀ k (session : SessionRow), c.server.store.get .authSessions k = some session →
        session.userId ≠ id → c'.server.store.get .authSessions k = some session) ∧
      ∀ t, t ∉ [Table.users, .authSessions, .auditLogs] → c'.server.store t = c.server.store t := by
  obtain ⟨_, d, hbegin, hrest₁⟩ := ends_bind.1 h
  obtain rfl := ends_beginTx.1 hbegin
  obtain ⟨o, d₁, happly, hrest₂⟩ := ends_bind.1 hrest₁
  obtain ⟨row', d₂, hsome, hrest₃⟩ := ends_bind.1 hrest₂
  obtain ⟨rfl, rfl⟩ := ends_okOr.1 hsome
  obtain ⟨hspared, hedited⟩ := applyUpdate_ends rfl happly
  obtain ⟨_, d₃, hrevoke, hrest₄⟩ := ends_bind.1 hrest₃
  -- sessions are revoked where the change calls for it
  have hsessions : Spared (tables [.authSessions, .auditLogs]) d₂ d₃ := hrevoke.spared
    (whenever (.bind (Repositories.AuthSessions.revokeAllForUser_within
      (free_tables (by simp)).edits _) fun _ =>
        Auth.recordSessionRevocation_within (free_tables (by simp)) _ _ _ _))
  obtain ⟨_, d₄, hrecord, hrest₅⟩ := ends_bind.1 hrest₄
  have haudit := Repositories.AuditLogs.record_spared hrecord
  obtain ⟨_, d₅, hcommit, hret⟩ := ends_bind.1 hrest₅
  obtain ⟨rfl, rfl⟩ := ends_ret.1 hret
  obtain ⟨e, hends, hnone, hstore, _⟩ := commitTx_ends (ε := ApiError) (p := n) (c := d₄)
    (by rw [haudit.isOpen, hsessions.isOpen, hspared.isOpen]; rfl)
  obtain ⟨_, rfl⟩ := hends.iff.1 hcommit
  refine ⟨hnone, ?_⟩
  rw [hstore]
  -- what follows the UPDATE keeps the accounts
  have husers : ∀ i, d₄.view.get .users i = d₂.view.get .users i := by
    intro i
    rw [haudit.view_get (frozen_tables (by simp)) i,
      hsessions.view_get (frozen_tables (by simp)) i]
  refine ⟨⟨fun i hi => (husers i).trans (hedited.row i hi), ?_⟩, fun k session hk hne => ?_,
    fun t ht => ?_⟩
  · rw [husers id]
    exact hedited.edited
  · have hbefore : d₂.view.get .authSessions k = some session := by
      rw [hspared.view_get (frozen_tables (by simp))]
      exact hk
    -- the revocation reaches sessions of this account alone
    have hsame : d₃.view.get .authSessions k = d₂.view.get .authSessions k := by
      rcases ends_whenever.1 hrevoke with ⟨_, hrevoke⟩ | ⟨_, rfl⟩
      · refine hrevoke.get_eq (revoke_within_account _ _ _) fun _ _ hchange => ?_
        obtain ⟨row, hrow, huser⟩ := hchange
        rw [hbefore] at hrow
        cases hrow
        exact hne huser
      · rfl
    rw [haudit.view_get (frozen_tables (by simp)), hsame, hbefore]
  · rw [haudit.table t (frozen_tables fun hm => ht (by simp_all)),
      hsessions.table t (frozen_tables fun hm => ht (by simp_all))]
    exact hspared.table t (frozen_tables fun hm => ht (by simp_all))

/-- What an update checks before its transaction; the result is the hash of a new password. -/
def checkUpdate (env : External) (id : Nat) (actor : ActorContext) (req : UpdateUserRequest)
    (canGrantSuperAdmin canAssignDepartment : Bool) : Db (Option String) := do
  ensureActorCanAccess (some actor) id
  Prog.ifSome req.departmentId fun departmentId =>
    validateDepartment id actor departmentId canAssignDepartment
  Prog.reject ((req.displayName.map trim).any fun value => isEmpty value || byteLen value > 128)
    (.validation "显示名称长度需在 1-128 个字符之间")
  Prog.ifSome req.status fun status =>
    validateStatus id (some actor.userId) status canGrantSuperAdmin
  newPasswordHash env req.password

theorem update_eq : update env id (some actor) req canGrantSuperAdmin canAssignDepartment =
    (checkUpdate env id actor req canGrantSuperAdmin canAssignDepartment >>= fun passwordHash =>
      commitUpdate id (some actor.userId) req passwordHash (req.displayName.map trim)
        (nullablePatch req.email).1 ((nullablePatch req.email).2.bind fun value =>
          if isEmpty (trim value) then none else some (trim value)) >>= fun row => do
        let roles ← Repositories.Users.roleNamesByUser id
        return userResponse id row roles) := by
  simp only [update, checkUpdate, commitUpdate, bind_assoc, Prog.pure_eq, Prog.ret_bind, Prog.ifSome,
    Option.map_some]

/-- The account is one that the actor may see. -/
theorem ensureActorCanAccess_ends
    (h : Ends n (ensureActorCanAccess (some actor) id) c () c') :
    c' = c ∧ ∃ row : UserRow, c.server.store.get .users id = some row ∧ row.deletedAt = none ∧
      Repositories.Users.isVisible (committed c.server) actor id row = true := by
  obtain ⟨o, c₁, hfind, hreject⟩ := ends_bind.1 h
  obtain ⟨hsome, rfl⟩ := ends_reject.1 hreject
  obtain ⟨s, c₂, hs, hret⟩ := ends_bind.1 hfind
  obtain ⟨rfl, rfl⟩ := ends_poolQuery.1 hs
  obtain ⟨rfl, rfl⟩ := ends_ret.1 hret
  obtain ⟨found, hfound⟩ := Option.isSome_iff_exists.1 (Option.isNone_eq_false_iff.1 hsome)
  obtain ⟨hbyId, hvisible⟩ := Option.filter_eq_some_iff.1 hfound
  obtain ⟨row, hrow, rfl⟩ := Option.map_eq_some_iff.1 hbyId
  obtain ⟨hget, hlive⟩ := Option.filter_eq_some_iff.1 hrow
  exact ⟨rfl, row, hget, Option.isNone_iff_eq_none.1 hlive, hvisible⟩

theorem checkUpdate_ends {passwordHash : Option String} (h : Ends n
    (checkUpdate env id actor req canGrantSuperAdmin canAssignDepartment) ⟨none, s⟩ passwordHash c') :
    Spared (tables []) ⟨none, s⟩ c' ∧
      (∃ row : UserRow, s.store.get .users id = some row ∧
        Repositories.Users.isVisible (committed s) actor id row = true) ∧
      ∀ d, req.departmentId = some d → Assignable s.store actor d ∧
        (actor.userId = id → actor.departmentId = some d) := by
  obtain ⟨_, c₁, haccess, hrest₁⟩ := ends_bind.1 h
  obtain ⟨rfl, row, hrow, _, hvisible⟩ := ensureActorCanAccess_ends haccess
  obtain ⟨_, c₂, hdept, hrest₂⟩ := ends_bind.1 hrest₁
  have hchecked : c₂ = ⟨none, s⟩ ∧ ∀ d, req.departmentId = some d → Assignable s.store actor d ∧
      (actor.userId = id → actor.departmentId = some d) := by
    rcases ends_ifSome.1 hdept with ⟨d, hd, hcheck⟩ | ⟨hnone, rfl⟩
    · obtain ⟨_, c₃, hcan, hcheck₁⟩ := ends_bind.1 hcheck
      obtain ⟨_, rfl⟩ := ends_reject.1 hcan
      obtain ⟨_, c₄, hself, hassign⟩ := ends_bind.1 hcheck₁
      obtain ⟨hself, rfl⟩ := ends_reject.1 hself
      obtain ⟨rfl, hassignable⟩ := validateAssignment_ends hassign
      refine ⟨rfl, fun d' hd' => ?_⟩
      rw [hd] at hd'
      cases hd'
      refine ⟨hassignable, fun heq => ?_⟩
      simpa [heq] using hself
    · exact ⟨rfl, fun d hd => by simp [hnone] at hd⟩
  obtain ⟨rfl, hchecked⟩ := hchecked
  obtain ⟨_, c₅, hname, hrest₃⟩ := ends_bind.1 hrest₂
  obtain ⟨_, rfl⟩ := ends_reject.1 hname
  obtain ⟨_, c₆, hstatus, hhash⟩ := ends_bind.1 hrest₃
  have hsame₁ := hstatus.spared_nothing fun _ => ifSome fun _ => validateStatus_within _ _ _ _
  have hsame₂ := hhash.spared_nothing fun _ => newPasswordHash_within _ _
  exact ⟨hsame₁.trans hsame₂, ⟨row, hrow, hvisible⟩, hchecked⟩

/-- **What a successful update has checked, and what it has done.** -/
theorem edited_of_ends {response : UserResponse} (h : Ends n
    (update env id (some actor) req canGrantSuperAdmin canAssignDepartment) ⟨none, s⟩ response c') :
    c'.tx = none ∧
      (∃ row : UserRow, s.store.get .users id = some row ∧
        Repositories.Users.isVisible (committed s) actor id row = true) ∧
      (∀ d, req.departmentId = some d → Assignable s.store actor d ∧
        (actor.userId = id → actor.departmentId = some d)) ∧
      Edited s.store c'.server.store id req.departmentId ∧
      (∀ k (session : SessionRow), s.store.get .authSessions k = some session →
        session.userId ≠ id → c'.server.store.get .authSessions k = some session) ∧
      ∀ t, t ∉ [Table.users, .authSessions, .auditLogs] → c'.server.store t = s.store t := by
  rw [update_eq] at h
  obtain ⟨hash, c₁, hcheck, hrest⟩ := ends_bind.1 h
  obtain ⟨hpre, hvisible, hassignable⟩ := checkUpdate_ends hcheck
  obtain ⟨row, c₂, hcommit, hread⟩ := ends_bind.1 hrest
  obtain ⟨hnone, hedited, hsessions, htable⟩ := commitUpdate_ends hcommit
  have hlast := hread.spared_nothing fun _ =>
    .bind (Repositories.Users.roleNamesByUser_within _) fun _ => .ret
  refine ⟨hlast.tx_none hnone, hvisible, hassignable, ?_⟩
  rw [hlast.store]
  rw [hpre.store] at hedited hsessions htable
  exact ⟨hedited, hsessions, htable⟩

end Update

end Services.Users

end ArcAdmin
