import ArcAdmin.Proofs.OrganizationRequests

/-!
# Deleting a department

A department may go when it is not the root, has no child and no live member. The service checks
exactly that, and takes the members that have been deleted out of the department first, so that
their foreign key does not keep it. The foreign key of the audit log it forgets: whoever has acted
as a member is recorded with the department, for good.

* **`Linked`**, **`record_ends`** — an audit record can always be written;
* **`Deletable`** — the documented condition;
* **`departmentDeletion`** — it decides if and only if the audit log does not name the department;
* **`departmentDeletion_recorded`** — the department of somebody who has acted and moved away.
-/

namespace ArcAdmin

open ReadCommitted
open Repositories.Departments
open Prog.All

/-! ## Recording

An audit record names the organization and the department of its actor, as they are when it is
written. The foreign keys of the account make sure that both exist.
-/

/-- **What the foreign keys of accounts promise** of every state. -/
structure Linked (σ : Store Table) : Prop where
  organization : ∀ u (row : UserRow), σ.get .users u = some row →
    ∃ o : OrganizationRow, σ.get .organizations row.organizationId = some o
  department : ∀ u (row : UserRow) d, σ.get .users u = some row → row.departmentId = some d →
    Belongs σ row.organizationId d

namespace Repositories.AuditLogs

section Record

variable {n : Nat} {c : Conn Table} {actorUserId targetId : Option Nat} {action targetType : String}
  {details : List (String × Detail)}

theorem referencesOption_ends {t : Table} {id : Option t.Id} {cond : t.Row → Bool}
    (hopen : c.tx.isSome)
    (hrow : ∀ i, id = some i → ∃ r, c.view.get t i = some r ∧ cond r = true) :
    ∃ c', Ends n (referencesOption t id cond) c () c' ∧ Spared (tables []) c c' := by
  cases id with
  | none => exact ⟨c, ends_ret.2 ⟨rfl, rfl⟩, .refl c⟩
  | some i =>
    obtain ⟨c', h⟩ : ∃ c', Ends n (references t i cond (dbError .foreignKeyViolation)) c () c' :=
      (ends_references hopen).2 (hrow i rfl)
    exact ⟨c', h, references_spared h⟩

/-- The account whose organization and department an audit record names. -/
theorem recordStmt_origin {s : Snap} :
    (∀ o, ((recordStmt s actorUserId action targetType targetId details).row 0).organizationId =
      some o → ∃ u, ∃ row : UserRow, s.store.get .users u = some row ∧ row.organizationId = o) ∧
    ∀ d, ((recordStmt s actorUserId action targetType targetId details).row 0).departmentId =
      some d → ∃ u, ∃ row : UserRow, s.store.get .users u = some row ∧ row.departmentId = some d := by
  have hread : ∀ {o : Option Nat} {row : UserRow},
      (o.bind fun u => (s.store.get .users u : Option UserRow)) = some row →
        ∃ u, s.store.get .users u = some row := by
    intro o row h
    obtain ⟨u, _, hrow⟩ := Option.bind_eq_some_iff.1 h
    exact ⟨u, hrow⟩
  have htarget : ∀ {row : UserRow}, (if (targetType == "user") = true then
      targetId.bind fun u => (s.store.get .users u : Option UserRow) else none) = some row →
        ∃ u, s.store.get .users u = some row := by
    intro row h
    split at h
    · exact hread h
    · cases h
  constructor
  · intro o h
    rcases Option.or_eq_some_iff.1 h with hactor | ⟨_, htgt⟩
    · obtain ⟨row, hrow, rfl⟩ := Option.map_eq_some_iff.1 hactor
      obtain ⟨u, hu⟩ := hread hrow
      exact ⟨u, row, hu, rfl⟩
    · obtain ⟨row, hrow, rfl⟩ := Option.map_eq_some_iff.1 htgt
      obtain ⟨u, hu⟩ := htarget hrow
      exact ⟨u, row, hu, rfl⟩
  · intro d h
    rcases Option.or_eq_some_iff.1 h with hactor | ⟨_, htgt⟩
    · obtain ⟨row, hrow, hd⟩ := Option.bind_eq_some_iff.1 hactor
      obtain ⟨u, hu⟩ := hread hrow
      exact ⟨u, row, hu, hd⟩
    · obtain ⟨row, hrow, hd⟩ := Option.bind_eq_some_iff.1 htgt
      obtain ⟨u, hu⟩ := htarget hrow
      exact ⟨u, row, hu, hd⟩

/-- **An audit record can always be written.** -/
theorem record_ends (hopen : c.tx.isSome) (hwf : c.Wf) (hlinked : Linked c.view)
    (hactor : ∀ u, actorUserId = some u → ∃ row : UserRow, c.view.get .users u = some row) :
    ∃ c', Ends n (record actorUserId action targetType targetId details) c () c' := by
  let stmt := recordStmt c.snapshot actorUserId action targetType targetId details
  have hfree : c.view.blocks .auditLogs c.server.seq (stmt.row c.server.seq) = false := by
    unfold Store.blocks
    rw [hwf.view_undrawn (t := .auditLogs) rfl]
    exact List.any_eq_false.2 fun _ _ h => by cases h
  obtain ⟨c₁, hinsert, hspared, _⟩ : ∃ c₁,
      Ends n (stmt.exec (dbError .uniqueViolation)) c (stmt.key c.server.seq) c₁ ∧
        Spared (tables [.auditLogs]) c c₁ ∧ _ := stmt.ends hopen hfree
  have hsame : ∀ {t : Table}, t ≠ .auditLogs → ∀ i, c₁.view.get t i = c.view.get t i :=
    fun ht i => hspared.view_get (frozen_tables (by simpa using ht)) i
  have hopen₁ : c₁.tx.isSome := hspared.isOpen.trans hopen
  -- the three foreign keys
  obtain ⟨c₂, href₂, hspared₂⟩ : ∃ c₂, Ends n
      (referencesOption .users actorUserId fun _ => true) c₁ () c₂ ∧ Spared (tables []) c₁ c₂ := by
    refine referencesOption_ends hopen₁ fun u hu => ?_
    obtain ⟨row, hrow⟩ := hactor u hu
    exact ⟨row, (hsame (by simp) u).trans hrow, rfl⟩
  obtain ⟨c₃, href₃, hspared₃⟩ : ∃ c₃, Ends n (referencesOption .organizations
      (stmt.row 0).organizationId fun _ => true) c₂ () c₃ ∧ Spared (tables []) c₂ c₃ := by
    refine referencesOption_ends (hspared₂.isOpen.trans hopen₁) fun o ho => ?_
    obtain ⟨u, row, hrow, rfl⟩ := recordStmt_origin.1 o ho
    obtain ⟨org, horg⟩ := hlinked.organization u row hrow
    rw [hspared₂.view_eq]
    exact ⟨org, (hsame (by simp) _).trans horg, rfl⟩
  obtain ⟨c₄, href₄, _⟩ : ∃ c₄, Ends n (referencesOption .departments
      (stmt.row 0).departmentId fun _ => true) c₃ () c₄ ∧ Spared (tables []) c₃ c₄ := by
    refine referencesOption_ends (hspared₃.isOpen.trans (hspared₂.isOpen.trans hopen₁))
      fun d hd => ?_
    obtain ⟨u, row, hrow, hdept⟩ := recordStmt_origin.2 d hd
    obtain ⟨drow, hdrow, _⟩ := hlinked.department u row d hrow hdept
    rw [hspared₃.view_eq, hspared₂.view_eq]
    exact ⟨drow, (hsame (by simp) d).trans hdrow, rfl⟩
  exact ⟨c₄, ends_bind.2 ⟨_, _, ends_query.2 ⟨rfl, rfl⟩, ends_bind.2 ⟨_, _, hinsert,
    ends_bind.2 ⟨_, _, href₂, ends_bind.2 ⟨_, _, href₃, href₄⟩⟩⟩⟩⟩

end Record

end Repositories.AuditLogs

/-! ## The documented condition

What the comments of the source promise of a deletion, and the one thing that can come in between.
-/

/-- **The department may be deleted**: it is not the root, and has neither children nor live
members. -/
structure Deletable (σ : Store Table) (organizationId id : Nat) : Prop where
  notRoot : parentOf σ organizationId id ≠ none
  childless : ∀ i (row : DepartmentRow), σ.get .departments i = some row → row.parentId ≠ some id
  memberless : ∀ u (row : UserRow), σ.get .users u = some row → row.departmentId = some id →
    row.deletedAt.isSome

/-- No audit record names the department. -/
def Unrecorded (σ : Store Table) (id : Nat) : Prop :=
  ∀ a (row : AuditLogRow), σ.get .auditLogs a = some row → row.departmentId ≠ some id

/-- **What is expected of a deletion**: it succeeds exactly if the department may be deleted, and
changes no department, account or audit record when it fails. -/
def DeletesAsDocumented (s : Server Table) (actor : ActorContext) (id n : Nat) : Prop :=
  ((∃ c, Ends n (Services.Departments.delete actor id) ⟨none, s⟩ () c) ↔
    Deletable s.store actor.organizationId id) ∧
  ∀ e, ((Services.Departments.delete actor id).run n ⟨none, s⟩).1 = .error e →
    ∀ t ∈ [Table.departments, .users, .auditLogs],
      ((Services.Departments.delete actor id).run n ⟨none, s⟩).2.server.store t = s.store t

section Deletion

variable {n : Nat} {s : Server Table} {actor : ActorContext} {id : Nat}

theorem Deleted.deletable {σ σ' : Store Table} (h : Deleted σ σ' actor id) :
    Deletable σ actor.organizationId id := ⟨h.notRoot, h.childless, h.memberless⟩

theorem Services.Departments.delete_atomic : (delete actor id).Atomic := by
  refine .bind (Repositories.Departments.findById_within _ _).uncommitting fun _ => ?_
  refine .bind (all_okOr _ _) fun _ => .bind (all_reject _ _) fun _ => ?_
  refine .bind (all_reject _ _) fun _ => .bind (all_reject _ _) fun _ => ?_
  refine .bind beginTx_uncommitting fun _ => ?_
  refine .bind (Repositories.Departments.deleteIfEmpty_within free_anything
    (fun _ _ _ => free_anything _ _ _ _) _ _).uncommitting fun _ => ?_
  refine .bind (all_reject _ _) fun _ => ?_
  refine .bind (Repositories.AuditLogs.record_within free_anything _ _ _ _ _).uncommitting fun _ => ?_
  exact commitTx_atomic

/-- After the deletion every account is still in a department that exists. -/
theorem Linked.of_deleted {σ σ' : Store Table} {now : Nat} (h : Linked σ)
    (horgs : ∀ o, σ'.get .organizations o = σ.get .organizations o)
    (hdept : ∀ i, σ'.get .departments i = if i = id then none else σ.get .departments i)
    (husers : ∀ u, σ'.get .users u = (σ.get .users u).map (detach id now)) : Linked σ' := by
  have horg : ∀ row : UserRow, (detach id now row).organizationId = row.organizationId := by
    intro row
    unfold detach
    split <;> rfl
  constructor
  · intro u row hu
    rw [husers u] at hu
    obtain ⟨old, hold, rfl⟩ := Option.map_eq_some_iff.1 hu
    rw [horg old, horgs]
    exact h.organization u old hold
  · intro u row d hu hd
    rw [husers u] at hu
    obtain ⟨old, hold, rfl⟩ := Option.map_eq_some_iff.1 hu
    have hne : d ≠ id := by
      rintro rfl
      exact departmentId_detach_ne now old hd
    have hkept : old.departmentId ≠ some id := by
      intro heq
      rw [departmentId_detach heq] at hd
      cases hd
    rw [detach_of_ne hkept] at hd ⊢
    obtain ⟨drow, hdrow, hin⟩ := h.department u old d hold hd
    exact ⟨drow, by rw [hdept d, if_neg hne, hdrow], hin⟩

/-- **A department that may go, goes**, unless the audit log names it. -/
theorem Services.Departments.delete_ends (hwf : s.Wf) (hlinked : Linked s.store)
    (hactor : ∃ row : UserRow, s.store.get .users actor.userId = some row) {found : Found}
    (hfind : Ends n (findById actor id) ⟨none, s⟩ (some found) ⟨none, s⟩)
    (hdeletable : Deletable s.store actor.organizationId id) (hunrecorded : Unrecorded s.store id) :
    ∃ c, Ends n (delete actor id) ⟨none, s⟩ () c := by
  obtain ⟨_, _, hrow, hvisible, hmembers, hchildren⟩ := found_of_ends hfind
  have horg : found.row.organizationId = actor.organizationId := by
    obtain ⟨row, hrow', horg⟩ := hvisible.belongs
    rw [hrow] at hrow'
    cases hrow'
    exact horg
  have hroot : found.row.parentId.isSome := by
    have hne := hdeletable.notRoot
    rw [parentOf_eq hrow horg] at hne
    exact Option.isSome_iff_ne_none.2 hne
  have hchild₀ : childCount (committed s) id = 0 := childCount_eq_zero.2 hdeletable.childless
  have hmember₀ : memberCount (committed s) id = 0 := memberCount_eq_zero.2 hdeletable.memberless
  let c := (⟨none, s⟩ : Conn Table).begun
  obtain ⟨c₁, hspared, hdept, husers, hends⟩ := deleteIfEmpty_ends (n := n) (c := c) rfl hrow horg
    hroot hchild₀ hmember₀
  have hdelete : Ends n (deleteIfEmpty actor.organizationId id) c true c₁ :=
    (hends true c₁).2 ⟨rfl, rfl, hunrecorded⟩
  -- the record of the deletion
  have hlinked₁ : Linked c₁.view :=
    hlinked.of_deleted (fun o => hspared.view_get (frozen_tables (by simp)) o) hdept husers
  obtain ⟨row, hrow'⟩ := hactor
  obtain ⟨c₂, hrecord⟩ : ∃ c₂, Ends n (Repositories.AuditLogs.record (some actor.userId)
      "department.delete" "department" (some id)
      [("code", .text found.row.code), ("name", .text found.row.name)]) c₁ () c₂ := by
    refine Repositories.AuditLogs.record_ends (hspared.isOpen.trans rfl) (hdelete.wf hwf.begun)
      hlinked₁ fun u hu => ?_
    cases hu
    refine ⟨detach id c.snapshot.now row, ?_⟩
    rw [husers]
    exact congrArg (Option.map _) hrow'
  have hopen₂ : c₂.tx.isSome :=
    (Repositories.AuditLogs.record_spared hrecord).isOpen.trans (hspared.isOpen.trans rfl)
  obtain ⟨c₃, hcommit, _⟩ := commitTx_ends (ε := ApiError) (p := n) hopen₂
  refine ⟨c₃, ends_bind.2 ⟨_, _, hfind, ends_bind.2 ⟨_, _, ends_okOr.2 ⟨rfl, rfl⟩, ?_⟩⟩⟩
  refine ends_bind.2 ⟨(), _, ends_reject.2 ⟨Option.isNone_eq_false_iff.2 hroot, rfl⟩, ?_⟩
  refine ends_bind.2 ⟨(), _, ends_reject.2 ⟨by simp [hchildren, hchild₀], rfl⟩, ?_⟩
  refine ends_bind.2 ⟨(), _, ends_reject.2 ⟨by simp [hmembers, hmember₀], rfl⟩, ?_⟩
  refine ends_bind.2 ⟨(), c, ends_beginTx.2 rfl, ends_bind.2 ⟨_, _, hdelete, ?_⟩⟩
  exact ends_bind.2 ⟨(), _, ends_reject.2 ⟨rfl, rfl⟩, ends_bind.2 ⟨_, _, hrecord, hcommit⟩⟩

/-- **A deletion works as documented** if and only if the department may not be deleted anyway, or
no audit record names it. -/
theorem departmentDeletion (hwf : s.Wf) (hlinked : Linked s.store)
    (hactor : ∃ row : UserRow, s.store.get .users actor.userId = some row) {found : Found}
    (hfind : Ends n (findById actor id) ⟨none, s⟩ (some found) ⟨none, s⟩) :
    DeletesAsDocumented s actor id n ↔
      (Deletable s.store actor.organizationId id → Unrecorded s.store id) := by
  constructor
  · rintro ⟨hiff, _⟩ hdeletable
    obtain ⟨c, hends⟩ := hiff.2 hdeletable
    exact (Services.Departments.deleted_of_ends hends).2.2
  · intro hcondition
    refine ⟨⟨?_, fun hdeletable => ?_⟩, fun e herror t _ => ?_⟩
    · rintro ⟨c, hends⟩
      exact (Services.Departments.deleted_of_ends hends).2.1.deletable
    · exact Services.Departments.delete_ends hwf hlinked hactor hfind hdeletable
        (hcondition hdeletable)
    · rw [Services.Departments.delete_atomic n ⟨none, s⟩ e herror]

end Deletion

/-- The foreign keys of the sample chart. -/
theorem Sample.office_linked : Linked Sample.office.store := by
  have hall : ∀ e ∈ (Sample.office.store.rows .users : List (Nat × UserRow)),
      e.2.organizationId = 1 ∧ ∀ d, e.2.departmentId = some d → d ∈ [1, 2, 3, 4] := by
    decide +kernel
  have horg : ∃ e ∈ (Sample.office.store.rows .organizations : List (Nat × OrganizationRow)),
      e.1 = Sample.administrator.organizationId := by
    decide +kernel
  constructor
  · intro u row hu
    obtain ⟨e, he, hid⟩ := horg
    refine ⟨e.2, ?_⟩
    have hrow : Sample.office.store.get .organizations e.1 = some e.2 := Store.mem_rows.1 he
    rw [(hall (u, row) (Store.mem_rows.2 hu)).1]
    rwa [hid] at hrow
  · intro u row d hu hd
    obtain ⟨hone, hmem⟩ := hall (u, row) (Store.mem_rows.2 hu)
    rw [hone]
    exact Sample.office_belongs (hmem d hd)

/-- Support has a member, and is kept. -/
theorem departmentDeletion_office : DeletesAsDocumented Sample.office Sample.administrator 4 0 := by
  obtain ⟨rows, hrows⟩ : ∃ rows, visible (committed Sample.office) Sample.administrator = some rows :=
    visible_ends Sample.office_forest.acyclic
  have hmember : ∃ e ∈ (Sample.office.store.rows .users : List (Nat × UserRow)),
      e.2.departmentId = some 4 ∧ e.2.deletedAt = none := by
    decide +kernel
  have hactor : ∃ e ∈ (Sample.office.store.rows .users : List (Nat × UserRow)),
      e.1 = Sample.administrator.userId := by
    decide +kernel
  have hfind : ∃ found, Ends 0 (findById Sample.administrator 4) ⟨none, Sample.office⟩ (some found)
      ⟨none, Sample.office⟩ := by
    obtain ⟨row, hrow, horg⟩ := Sample.office_belongs (show 4 ∈ [1, 2, 3, 4] by decide)
    have hroot : Repositories.Departments.Top Sample.office.store Sample.administrator 1 :=
      ⟨Sample.office_belongs (by decide), rfl⟩
    have hparent : parentOf Sample.office.store 1 4 = some 1 := by decide +kernel
    have hsees : Visible Sample.office.store Sample.administrator 4 :=
      ⟨1, hroot, .single hparent⟩
    have hsome := (find?_visible (e := (4, row)) hrows).2 ⟨rfl, hrow, hsees⟩
    exact ⟨_, ends_findById.2 ⟨rfl, rows, hrows, by rw [hsome]; rfl⟩⟩
  obtain ⟨e, he, hid⟩ := hactor
  obtain ⟨found, hfind⟩ := hfind
  refine (departmentDeletion Sample.office_wf Sample.office_linked ⟨e.2, ?_⟩ hfind).2 ?_
  · have hrow : Sample.office.store.get .users e.1 = some e.2 := Store.mem_rows.1 he
    rwa [hid] at hrow
  · intro hdeletable
    obtain ⟨f, hf, hdept, hlive⟩ := hmember
    have hdeleted := hdeletable.memberless f.1 f.2 (Store.mem_rows.1 hf) hdept
    rw [hlive] at hdeleted
    cases hdeleted

/-! ## Somebody who has acted

A request of a member leaves a record with the department; when the member has moved away, the
record stays.
-/

/-- The support staff, acting for itself. -/
def Sample.supporter : ActorContext where
  userId := 23
  sessionId := 0
  organizationId := 1
  departmentId := some 4
  dataScope := .selfOnly
  permissionCodes := []

/-- Requests of any actor. -/
def Sample.serveActor (request : ActorContext × OrganizationRequest) : Db Unit :=
  request.2.perform Sample.external request.1

/-- The support staff changes its own name, and is moved to headquarters afterwards. -/
def Sample.supportLeft : Server Table :=
  play Sample.serveActor 0 Sample.office
    [.request (Sample.supporter,
        .updateUser 23 ⟨some "Support", .missing, none, none, none⟩ false false),
      .request (Sample.administrator,
        .updateUser 23 ⟨none, .missing, none, some 1, none⟩ false true)]

theorem Sample.supportLeft_deletable :
    Deletable Sample.supportLeft.store Sample.administrator.organizationId 4 := by
  have hroot : parentOf Sample.supportLeft.store 1 4 ≠ none := by decide +kernel
  have hchild : childCount (committed Sample.supportLeft) 4 = 0 := by decide +kernel
  have hmember : memberCount (committed Sample.supportLeft) 4 = 0 := by decide +kernel
  exact ⟨hroot, childCount_eq_zero.1 hchild, memberCount_eq_zero.1 hmember⟩

/-- **A department whose last member has acted and moved away** is not deleted. -/
theorem departmentDeletion_recorded :
    (∃ m, Reachable Sample.serveActor Sample.office (Config.rest m Sample.supportLeft)) ∧
      Deletable Sample.supportLeft.store Sample.administrator.organizationId 4 ∧
      ((Services.Departments.delete Sample.administrator 4).run 2 ⟨none, Sample.supportLeft⟩).1 =
        .error (dbError .foreignKeyViolation) ∧
      ¬ DeletesAsDocumented Sample.supportLeft Sample.administrator 4 2 := by
  have hfails : ((Services.Departments.delete Sample.administrator 4).run 2
      ⟨none, Sample.supportLeft⟩).1 = .error (dbError .foreignKeyViolation) := by
    decide +kernel
  refine ⟨reachable_play Sample.serveActor _ _, Sample.supportLeft_deletable, hfails,
    fun hdocumented => ?_⟩
  obtain ⟨c, hends⟩ := hdocumented.1.2 Sample.supportLeft_deletable
  have hrun : ((Services.Departments.delete Sample.administrator 4).run 2
      ⟨none, Sample.supportLeft⟩).1 = .ok () := congrArg Prod.fst hends
  rw [hfails] at hrun
  cases hrun

end ArcAdmin
