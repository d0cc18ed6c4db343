import ArcAdmin.Proofs.OrganizationRequests

/-!
# A restricted administrator stays inside its subtree

An actor with the scope `department_and_children` works on the departments below its own one, `r`.
Each of its requests is confined to that subtree as it is at the time of the request, and what lies
outside, `r`'s own parent included, is the same after any number of them.

* **`Confined`** — the changes of one request lie in the subtree, for each kind of request;
* **`SameOutside`** — what lies outside the subtree is the same;
* **`subtreeFrame`** — every sequence of successful requests.
-/

namespace ArcAdmin

open ReadCommitted
open Repositories.Departments

/-! ## The subtree and its members

What one request may do, and what has to be the same after many of them.
-/

/-- The account belongs to a department of the subtree. -/
def Inside (σ : Store Table) (organizationId r : Nat) (row : UserRow) : Prop :=
  row.organizationId = organizationId ∧
    ∃ d, row.departmentId = some d ∧ Below σ organizationId d r

/-- The actor's department is `r`, with everything below it in its scope. -/
structure Restricted (actor : ActorContext) (r : Nat) : Prop where
  scope : actor.dataScope = .departmentAndChildren
  department : actor.departmentId = some r

/-- **The state that the requests start from**: the departments form a forest, accounts are in
departments of their organization, and the actor's own account is in `r`. -/
structure Ground (σ : Store Table) (actor : ActorContext) (r : Nat) : Prop where
  forest : DepartmentForest σ actor.organizationId
  members : ∀ u (row : UserRow) d, σ.get .users u = some row → row.departmentId = some d →
    Belongs σ row.organizationId d
  placed : ∃ row : UserRow, σ.get .users actor.userId = some row ∧ row.deletedAt = none ∧
    row.organizationId = actor.organizationId ∧ row.departmentId = some r

/-- **The departments that one request changes** lie in the subtree, new ones come to stand in it,
every parent that is assigned lies in it, and `r` keeps its parent. -/
structure ConfinedDepartments (σ σ' : Store Table) (organizationId r : Nat) : Prop where
  department : ∀ i, σ'.get .departments i ≠ σ.get .departments i →
    (Belongs σ organizationId i ∧ Below σ organizationId i r ∨
      σ.get .departments i = none ∧ Below σ' organizationId i r) ∧
    ∀ row : DepartmentRow, σ'.get .departments i = some row → row.organizationId = organizationId
  /-- A request that names the parent that a department has already assigns none. -/
  parent : ∀ i p, parentOf σ' organizationId i = some p → parentOf σ organizationId i ≠ some p →
    Below σ organizationId p r
  noRoot : ∀ i, Belongs σ' organizationId i → parentOf σ' organizationId i = none →
    parentOf σ organizationId i = none
  top : parentOf σ' organizationId r = parentOf σ organizationId r

/-- **The accounts that one request changes** are in the subtree, with their sessions and roles, and
every department that is assigned lies in it. -/
structure ConfinedAccounts (σ σ' : Store Table) (organizationId r : Nat) : Prop where
  user : ∀ u (row : UserRow), σ.get .users u = some row → σ'.get .users u ≠ some row →
    Inside σ organizationId r row
  member : ∀ u (row : UserRow) d, σ'.get .users u = some row → row.departmentId = some d →
    (∀ old : UserRow, σ.get .users u = some old → old.departmentId ≠ some d) →
      row.organizationId = organizationId ∧ Below σ organizationId d r
  /-- Nobody is left without a department. -/
  placed : ∀ u (row : UserRow), σ'.get .users u = some row → row.deletedAt = none →
    row.departmentId = none → σ.get .users u = some row
  roles : ∀ u (row : UserRow) (roleId : Nat), σ.get .users u = some row →
    σ'.get .userRoles (u, roleId) = σ.get .userRoles (u, roleId)
  sessions : ∀ k (session : SessionRow) (row : UserRow), σ.get .authSessions k = some session →
    σ.get .users session.userId = some row → ¬ Inside σ organizationId r row →
      σ'.get .authSessions k = some session

/-- **What one request may do.** -/
structure Confined (σ σ' : Store Table) (organizationId r : Nat) : Prop where
  departments : ConfinedDepartments σ σ' organizationId r
  accounts : ConfinedAccounts σ σ' organizationId r
  tables : ∀ t, t ∉ [Table.departments, .users, .userRoles, .authSessions, .auditLogs] →
    σ' t = σ t

/-- **What lies outside the subtree is the same**: its departments, `r`'s own parent, its accounts
with their roles and sessions, and every other table. Accounts that have been deleted leave the
subtree together with their department. -/
structure SameOutside (σ σ' : Store Table) (organizationId r : Nat) : Prop where
  department : ∀ i (row : DepartmentRow),
    σ.get .departments i = some row ∧ ¬ Below σ organizationId i r ↔
      σ'.get .departments i = some row ∧ ¬ Below σ' organizationId i r
  top : parentOf σ' organizationId r = parentOf σ organizationId r
  user : ∀ u (row : UserRow), σ.get .users u = some row → ¬ Inside σ organizationId r row →
    σ'.get .users u = some row ∧ ¬ Inside σ' organizationId r row
  noUser : ∀ u (row : UserRow), σ'.get .users u = some row → row.deletedAt = none →
    ¬ Inside σ' organizationId r row →
      σ.get .users u = some row ∧ ¬ Inside σ organizationId r row
  roles : ∀ u (row : UserRow) (roleId : Nat), σ.get .users u = some row →
    ¬ Inside σ organizationId r row →
      σ'.get .userRoles (u, roleId) = σ.get .userRoles (u, roleId)
  sessions : ∀ k (session : SessionRow) (row : UserRow), σ.get .authSessions k = some session →
    σ.get .users session.userId = some row → ¬ Inside σ organizationId r row →
      σ'.get .authSessions k = some session
  tables : ∀ t, t ∉ [Table.departments, .users, .userRoles, .authSessions, .auditLogs] →
    σ' t = σ t

section Subtree

variable {σ σ' : Store Table} {actor : ActorContext} {r id : Nat}

theorem Ground.belongs (h : Ground σ actor r) : Belongs σ actor.organizationId r := by
  obtain ⟨row, hrow, _, horg, hdept⟩ := h.placed
  rw [← horg]
  exact h.members _ row r hrow hdept

/-- What such an actor sees is the subtree. -/
theorem visible_iff (hactor : Restricted actor r) :
    Visible σ actor id ↔ Belongs σ actor.organizationId r ∧ Below σ actor.organizationId id r := by
  have hwide : isWide actor = false := by simp [isWide, hactor.scope]
  unfold Visible Repositories.Departments.Top
  rw [hwide, hactor.scope, hactor.department]
  constructor
  · rintro ⟨top, ⟨hbelongs, htop⟩, hbelow⟩
    cases htop
    exact ⟨hbelongs, hbelow⟩
  · rintro ⟨hbelongs, hbelow⟩
    exact ⟨r, ⟨hbelongs, rfl⟩, hbelow⟩

/-- The accounts such an actor sees are in the subtree. -/
theorem inside_of_isVisible {s : Snap} (hactor : Restricted actor r) {row : UserRow}
    (h : Repositories.Users.isVisible s actor id row = true) :
    Inside s.store actor.organizationId r row := by
  unfold Repositories.Users.isVisible at h
  rw [hactor.scope, hactor.department] at h
  have hscope : row.organizationId = actor.organizationId ∧ row.departmentId.any
      (visibleDepartments s actor.organizationId (some r)).contains = true := by
    simpa using h
  obtain ⟨horg, hany⟩ := hscope
  obtain ⟨d, hd, hcontains⟩ := (Option.any_eq_true _ _).1 hany
  obtain ⟨top, htop, hunder⟩ := mem_visibleDepartments.1 (List.contains_iff_mem.1 hcontains)
  cases htop
  exact ⟨horg, d, hd, (under_iff.1 hunder).2⟩

/-- A department is of one organization. -/
theorem Repositories.Departments.Belongs.unique {a b : Nat} (ha : Belongs σ a id)
    (hb : Belongs σ b id) : a = b := by
  obtain ⟨row, hrow, rfl⟩ := ha
  obtain ⟨row', hrow', rfl⟩ := hb
  rw [hrow] at hrow'
  cases hrow'
  rfl

/-- The parents of departments that are as they were. -/
theorem parentOf_congr {organizationId i : Nat}
    (h : σ'.get .departments i = σ.get .departments i) :
    parentOf σ' organizationId i = parentOf σ organizationId i := by
  unfold parentOf
  rw [h]

end Subtree

/-! ## What is outside stays outside

A request may move departments within the subtree. What has to be shown is that no department
crosses its border, in either direction.
-/

section Frame

variable {σ σ' : Store Table} {actor : ActorContext} {r : Nat}

/-- **Nothing comes in from outside**: what stands below `r` afterwards did so before. -/
theorem ConfinedDepartments.below (h : ConfinedDepartments σ σ' actor.organizationId r)
    (hforest : DepartmentForest σ actor.organizationId) {i : Nat}
    (hi : Belongs σ actor.organizationId i) (hbelow : Below σ' actor.organizationId i r) :
    Below σ actor.organizationId i r := by
  induction hbelow using Relation.ReflTransGen.head_induction_on with
  | refl => exact .refl
  | @head i p hparent _ ih =>
    by_cases hsame : σ'.get .departments i = σ.get .departments i
    · have hold : parentOf σ actor.organizationId i = some p :=
        (parentOf_congr hsame).symm.trans hparent
      exact .head hold (ih (hforest.linked i p hold))
    · -- a department that the request has changed stood below `r`
      rcases (h.department i hsame).1 with ⟨_, hbelow⟩ | ⟨hnone, _⟩
      · exact hbelow
      · obtain ⟨row, hrow, _⟩ := hi
        rw [hnone] at hrow
        cases hrow

/-- **Nothing goes out.** The induction is on the path from the department to its root. -/
theorem ConfinedDepartments.below' (h : ConfinedDepartments σ σ' actor.organizationId r)
    (hforest : DepartmentForest σ' actor.organizationId) {i : Nat}
    (hi : Belongs σ' actor.organizationId i) (hbelow : Below σ actor.organizationId i r) :
    Below σ' actor.organizationId i r := by
  obtain ⟨root, _, hroot, hpath⟩ := hforest.connected hi
  induction hpath using Relation.ReflTransGen.head_induction_on with
  | refl =>
    have hnone := h.noRoot root hi hroot
    rcases Relation.ReflTransGen.cases_head hbelow with rfl | ⟨p, hp, _⟩
    · exact .refl
    · have hp' : parentOf σ actor.organizationId root = some p := hp
      rw [hnone] at hp'
      cases hp'
  | @head i p hparent _ ih =>
    have hp : Belongs σ' actor.organizationId p := hforest.linked i p hparent
    by_cases hold : parentOf σ actor.organizationId i = some p
    · rcases Relation.ReflTransGen.cases_head hbelow with rfl | ⟨q, hq, hqr⟩
      · exact .refl
      · have hqp : q = p := Option.some.inj (hq.symm.trans hold)
        subst hqp
        exact .head hparent (ih hp hqr)
    · -- a parent that has been assigned lies in the subtree
      exact .head hparent (ih hp (h.parent i p hparent hold))

theorem Confined.inside (h : Confined σ σ' actor.organizationId r) (hground : Ground σ actor r)
    {u : Nat} {row : UserRow} (hrow : σ.get .users u = some row)
    (hinside : Inside σ' actor.organizationId r row) : Inside σ actor.organizationId r row := by
  obtain ⟨horg, d, hd, hbelow⟩ := hinside
  have hbelongs := hground.members u row d hrow hd
  rw [horg] at hbelongs
  exact ⟨horg, d, hd, h.departments.below hground.forest hbelongs hbelow⟩

theorem Confined.inside' (h : Confined σ σ' actor.organizationId r) (hground : Ground σ' actor r)
    {u : Nat} {row : UserRow} (hrow : σ'.get .users u = some row)
    (hinside : Inside σ actor.organizationId r row) : Inside σ' actor.organizationId r row := by
  obtain ⟨horg, d, hd, hbelow⟩ := hinside
  have hbelongs := hground.members u row d hrow hd
  rw [horg] at hbelongs
  exact ⟨horg, d, hd, h.departments.below' hground.forest hbelongs hbelow⟩

/-- What has changed belongs to the subtree afterwards. -/
theorem Confined.inside_of_changed (h : Confined σ σ' actor.organizationId r)
    (hground : Ground σ actor r) (hground' : Ground σ' actor r) {u : Nat} {row : UserRow}
    (hrow : σ'.get .users u = some row) (hlive : row.deletedAt = none)
    (hchanged : σ.get .users u ≠ some row) : Inside σ' actor.organizationId r row := by
  cases hd : row.departmentId with
  | none => exact absurd (h.accounts.placed u row hrow hlive hd) hchanged
  | some d =>
    have hbelongs := hground'.members u row d hrow hd
    have hmoved : row.organizationId = actor.organizationId ∧
        Below σ actor.organizationId d r := by
      by_cases hkept : ∃ old : UserRow, σ.get .users u = some old ∧ old.departmentId = some d
      · obtain ⟨old, hold, hdept⟩ := hkept
        have hne : σ'.get .users u ≠ some old := by
          intro heq
          rw [heq] at hrow
          cases hrow
          exact hchanged hold
        obtain ⟨_, d', hd', hbelow⟩ := h.accounts.user u old hold hne
        rw [hdept] at hd'
        cases hd'
        refine ⟨?_, hbelow⟩
        -- the department is in the subtree, and so of the actor's organization
        have hin : Belongs σ actor.organizationId d := hground.belongs.of_below hbelow
        by_cases hsame : σ'.get .departments d = σ.get .departments d
        · have hin' : Belongs σ' actor.organizationId d := by
            unfold Belongs
            rwa [hsame]
          exact hbelongs.unique hin'
        · obtain ⟨drow, hdrow, horg⟩ := hbelongs
          rw [← horg]
          exact (h.departments.department d hsame).2 drow hdrow
      · refine h.accounts.member u row d hrow hd fun old hold hdept => hkept ⟨old, hold, hdept⟩
    rw [hmoved.1] at hbelongs
    exact ⟨hmoved.1, d, hd, h.departments.below' hground'.forest hbelongs hmoved.2⟩

/-- **One request leaves what lies outside.** -/
theorem Confined.sameOutside (h : Confined σ σ' actor.organizationId r)
    (hground : Ground σ actor r) (hground' : Ground σ' actor r) :
    SameOutside σ σ' actor.organizationId r := by
  constructor
  · intro i row
    constructor
    · rintro ⟨hrow, hout⟩
      have hsame : σ'.get .departments i = σ.get .departments i := by
        by_contra hchanged
        rcases (h.departments.department i hchanged).1 with ⟨_, hbelow⟩ | ⟨hnone, _⟩
        · exact hout hbelow
        · rw [hrow] at hnone
          cases hnone
      refine ⟨hsame.trans hrow, fun hbelow => hout ?_⟩
      -- it is not the root itself, so its parent is below: the link was there before
      rcases Relation.ReflTransGen.cases_head hbelow with rfl | ⟨p, hp, _⟩
      · exact .refl
      · have hp' := (parentOf_congr hsame).symm.trans hp
        exact h.departments.below hground.forest (.of_child hp') hbelow
    · rintro ⟨hrow, hout⟩
      have hsame : σ'.get .departments i = σ.get .departments i := by
        by_contra hchanged
        obtain ⟨hwhere, horg⟩ := h.departments.department i hchanged
        rcases hwhere with ⟨_, hbelow⟩ | ⟨_, hbelow⟩
        · exact hout (h.departments.below' hground'.forest ⟨row, hrow, horg row hrow⟩ hbelow)
        · exact hout hbelow
      refine ⟨hsame.symm.trans hrow, fun hbelow => hout ?_⟩
      rcases Relation.ReflTransGen.cases_head hbelow with rfl | ⟨p, hp, _⟩
      · exact .refl
      · have hp' := (parentOf_congr hsame).trans hp
        exact h.departments.below' hground'.forest (.of_child hp') hbelow
  · exact h.departments.top
  · intro u row hrow hout
    have hkept : σ'.get .users u = some row := by
      by_contra hchanged
      exact hout (h.accounts.user u row hrow hchanged)
    exact ⟨hkept, fun hinside => hout (h.inside hground hrow hinside)⟩
  · intro u row hrow hlive hout
    have hkept : σ.get .users u = some row := by
      by_contra hchanged
      exact hout (h.inside_of_changed hground hground' hrow hlive hchanged)
    exact ⟨hkept, fun hinside => hout (h.inside' hground' hrow hinside)⟩
  · exact fun u row roleId hrow _ => h.accounts.roles u row roleId hrow
  · exact h.accounts.sessions
  · exact h.tables

theorem SameOutside.refl (σ : Store Table) (organizationId : Nat) :
    SameOutside σ σ organizationId r where
  department _ _ := Iff.rfl
  top := rfl
  user _ _ hrow hout := ⟨hrow, hout⟩
  noUser _ _ hrow _ hout := ⟨hrow, hout⟩
  roles _ _ _ _ _ := rfl
  sessions _ _ _ hk _ _ := hk
  tables _ _ := rfl

theorem SameOutside.trans {σ₁ σ₂ : Store Table} {organizationId : Nat}
    (h : SameOutside σ σ₁ organizationId r) (h' : SameOutside σ₁ σ₂ organizationId r) :
    SameOutside σ σ₂ organizationId r where
  department i row := (h.department i row).trans (h'.department i row)
  top := h'.top.trans h.top
  user u row hrow hout := by
    obtain ⟨hrow₁, hout₁⟩ := h.user u row hrow hout
    exact h'.user u row hrow₁ hout₁
  noUser u row hrow hlive hout := by
    obtain ⟨hrow₁, hout₁⟩ := h'.noUser u row hrow hlive hout
    exact h.noUser u row hrow₁ hlive hout₁
  roles u row roleId hrow hout := by
    obtain ⟨hrow₁, hout₁⟩ := h.user u row hrow hout
    exact (h'.roles u row roleId hrow₁ hout₁).trans (h.roles u row roleId hrow hout)
  sessions k session row hk hrow hout := by
    obtain ⟨hrow₁, hout₁⟩ := h.user _ row hrow hout
    exact h'.sessions k session row (h.sessions k session row hk hrow hout) hrow₁ hout₁
  tables t ht := (h'.tables t ht).trans (h.tables t ht)

end Frame

/-! ## Each request

For each kind of request: its effect is confined, and the state after it is one that the next
request may start from.
-/

section Requests

variable {σ σ' : Store Table} {actor : ActorContext} {r id : Nat}

/-- Departments that are the same. -/
theorem ConfinedDepartments.of_eq {organizationId : Nat}
    (h : σ' .departments = σ .departments) : ConfinedDepartments σ σ' organizationId r := by
  have hrow : ∀ i, σ'.get .departments i = σ.get .departments i := by
    intro i
    unfold Store.get
    rw [h]
  constructor
  · exact fun i hne => absurd (hrow i) hne
  · exact fun i p hp hne => absurd ((parentOf_congr (hrow i)).symm.trans hp) hne
  · exact fun i _ hnone => (parentOf_congr (hrow i)).symm.trans hnone
  · exact parentOf_congr (hrow r)

/-- Accounts, roles and sessions that are the same. -/
theorem ConfinedAccounts.of_eq {organizationId : Nat} (husers : σ' .users = σ .users)
    (hroles : σ' .userRoles = σ .userRoles) (hsessions : σ' .authSessions = σ .authSessions) :
    ConfinedAccounts σ σ' organizationId r := by
  have hrow : ∀ u, σ'.get .users u = σ.get .users u := by
    intro u
    unfold Store.get
    rw [husers]
  constructor
  · exact fun u row hu hne => absurd ((hrow u).trans hu) hne
  · exact fun u row d hu hd hne => absurd hd (hne row ((hrow u).symm.trans hu))
  · exact fun u row hu _ _ => (hrow u).symm.trans hu
  · intro u row roleId _
    unfold Store.get
    rw [hroles]
  · intro k session row hk _ _
    unfold Store.get at hk ⊢
    rwa [hsessions]

/-- Accounts and departments that are the same keep their ground. -/
theorem Ground.of_users (h : Ground σ actor r) (husers : σ' .users = σ .users)
    (hforest : DepartmentForest σ' actor.organizationId)
    (hbelongs : ∀ organizationId i, Belongs σ organizationId i → Belongs σ' organizationId i) :
    Ground σ' actor r := by
  have hrow : ∀ u, σ'.get .users u = σ.get .users u := by
    intro u
    unfold Store.get
    rw [husers]
  constructor
  · exact hforest
  · exact fun u row d hu hd => hbelongs _ _ (h.members u row d ((hrow u).symm.trans hu) hd)
  · obtain ⟨row, hu, hplaced⟩ := h.placed
    exact ⟨row, (hrow _).trans hu, hplaced⟩

/-- Departments that are the same keep their ground. -/
theorem Ground.of_departments (h : Ground σ actor r) (hdepts : σ' .departments = σ .departments)
    (hmembers : ∀ u (row : UserRow) d, σ'.get .users u = some row → row.departmentId = some d →
      Belongs σ row.organizationId d)
    (hplaced : ∃ row : UserRow, σ'.get .users actor.userId = some row ∧ row.deletedAt = none ∧
      row.organizationId = actor.organizationId ∧ row.departmentId = some r) :
    Ground σ' actor r := by
  have hbelongs : ∀ organizationId i, Belongs σ organizationId i → Belongs σ' organizationId i :=
    fun _ _ hi => hi.congr hdepts.symm
  have hof : parentOf σ' actor.organizationId = parentOf σ actor.organizationId := by
    funext i
    unfold parentOf Store.get
    rw [hdepts]
  refine ⟨⟨?_, fun i p hp => ?_⟩, fun u row d hu hd => hbelongs _ _ (hmembers u row d hu hd),
    hplaced⟩
  · rw [hof]
    exact h.forest.acyclic
  · rw [hof] at hp
    exact hbelongs _ _ (h.forest.linked i p hp)

/-! ### Departments

Creating, changing and deleting a department below `r`.
-/

theorem Created.parentOf_eq {parentId : Nat} (h : Created σ σ' actor id parentId) :
    parentOf σ' actor.organizationId =
      Forest.move (parentOf σ actor.organizationId) id parentId := by
  funext i
  by_cases hi : i = id
  · subst hi
    obtain ⟨new, hnew, horg, hparent⟩ := h.created
    rw [Forest.move_self, Repositories.Departments.parentOf_eq hnew horg, hparent]
  · rw [Forest.move_of_ne hi, parentOf_congr (h.row i hi)]

/-- Nothing stands below a number that no department has. -/
theorem Created.not_below {parentId : Nat} (h : Created σ σ' actor id parentId)
    (hforest : DepartmentForest σ actor.organizationId) :
    ¬ Below σ actor.organizationId parentId id := by
  have hnot : ¬ Belongs σ actor.organizationId id := by
    rintro ⟨row, hrow, _⟩
    rw [h.fresh] at hrow
    cases hrow
  intro hbelow
  rcases Relation.ReflTransGen.cases_tail hbelow with heq | ⟨child, _, hchild⟩
  · rw [heq] at hnot
    exact hnot h.visible.belongs
  · exact hnot (hforest.linked child id hchild)

theorem Created.belongs {parentId organizationId i : Nat} (h : Created σ σ' actor id parentId)
    (hi : Belongs σ organizationId i) : Belongs σ' organizationId i := by
  obtain ⟨row, hrow, horg⟩ := hi
  refine ⟨row, ?_, horg⟩
  rw [h.row i, hrow]
  rintro rfl
  rw [h.fresh] at hrow
  cases hrow

theorem Created.confined {parentId : Nat} (h : Created σ σ' actor id parentId)
    (hactor : Restricted actor r) (hground : Ground σ actor r) :
    Confined σ σ' actor.organizationId r ∧ Ground σ' actor r := by
  have hparent : Below σ actor.organizationId parentId r := ((visible_iff hactor).1 h.visible).2
  have hnot := h.not_below hground.forest
  -- the root is there already, the new department was not
  have hr : r ≠ id := by
    rintro rfl
    obtain ⟨row, hrow, _⟩ := hground.belongs
    rw [h.fresh] at hrow
    cases hrow
  have hof := h.parentOf_eq
  -- a new leaf under a department of the forest closes no cycle
  have hforest : DepartmentForest σ' actor.organizationId := by
    constructor
    · rw [hof]
      exact (Forest.acyclic_move_iff hground.forest.acyclic).2 hnot
    · intro i p hp
      rw [hof] at hp
      by_cases hi : i = id
      · subst hi
        have hp' : parentId = p := Option.some.inj (Forest.move_self.symm.trans hp)
        subst hp'
        exact h.belongs h.visible.belongs
      · exact h.belongs (hground.forest.linked i p ((Forest.move_of_ne hi).symm.trans hp))
  have htable : ∀ t, t ∉ [Table.departments, .auditLogs] → σ' t = σ t := h.table
  refine ⟨⟨⟨?_, ?_, ?_, ?_⟩, .of_eq (htable _ (by simp)) (htable _ (by simp)) (htable _ (by simp)),
    fun t ht => htable t fun hm => ht (by simp_all)⟩,
    hground.of_users (htable _ (by simp)) hforest fun _ _ => h.belongs⟩
  · intro i hne
    have hi : i = id := by
      by_contra hi
      exact hne (h.row i hi)
    subst hi
    obtain ⟨new, hnew, horg, _⟩ := h.created
    refine ⟨.inr ⟨h.fresh, ?_⟩, fun row hrow => ?_⟩
    · have hstep : parentOf σ' actor.organizationId i = some parentId := by
        rw [hof, Forest.move_self]
      refine .head hstep ?_
      rw [hof]
      exact Forest.under_move hnot hparent
    · rw [hnew] at hrow
      cases hrow
      exact horg
  · intro i p hp hne
    rw [hof] at hp
    by_cases hi : i = id
    · subst hi
      have hp' : parentId = p := Option.some.inj (Forest.move_self.symm.trans hp)
      exact hp' ▸ hparent
    · exact absurd ((Forest.move_of_ne hi).symm.trans hp) hne
  · intro i _ hnone
    rw [hof] at hnone
    by_cases hi : i = id
    · subst hi
      rw [Forest.move_self] at hnone
      cases hnone
    · exact (Forest.move_of_ne hi).symm.trans hnone
  · rw [hof, Forest.move_of_ne hr]

theorem Repositories.Departments.Updated.confined {parentId : Option Nat}
    (h : Updated σ σ' actor id parentId)
    (hactor : Restricted actor r) (hground : Ground σ actor r) :
    Confined σ σ' actor.organizationId r ∧ Ground σ' actor r := by
  obtain ⟨_, hbelow⟩ := (visible_iff hactor).1 h.visible
  have hof := h.parentOf_eq_update
  -- a parent that the department did not have before is in the subtree
  have hnew : ∀ p, parentId = some p → parentOf σ actor.organizationId id ≠ some p →
      Below σ actor.organizationId p r := by
    intro p hp hne
    exact ((visible_iff hactor).1 (h.checked p hp hne).1).2
  have htable : ∀ t, t ∉ [Table.departments, .auditLogs] → σ' t = σ t := h.table
  refine ⟨⟨⟨?_, ?_, ?_, ?_⟩, .of_eq (htable _ (by simp)) (htable _ (by simp)) (htable _ (by simp)),
    fun t ht => htable t fun hm => ht (by simp_all)⟩,
    hground.of_users (htable _ (by simp)) (h.forest hground.forest) fun _ _ => h.belongs_iff.2⟩
  · intro i hne
    have hi : i = id := by
      by_contra hi
      exact hne (h.row i hi)
    subst hi
    refine ⟨.inl ⟨h.visible.belongs, hbelow⟩, fun row hrow => ?_⟩
    exact (h.belongs_iff.1 ⟨row, hrow, rfl⟩).unique h.visible.belongs
  · intro i p hp hne
    rw [hof] at hp
    by_cases hi : i = id
    · subst hi
      rw [Function.update_self] at hp
      rcases Option.or_eq_some_iff.1 hp with hset | ⟨_, hold⟩
      · exact hnew p hset hne
      · exact absurd hold hne
    · exact absurd ((Function.update_of_ne hi _ _).symm.trans hp) hne
  · intro i _ hnone
    rw [hof] at hnone
    by_cases hi : i = id
    · subst hi
      rw [Function.update_self] at hnone
      exact (Option.or_eq_none_iff.1 hnone).2
    · exact (Function.update_of_ne hi _ _).symm.trans hnone
  · rw [hof]
    by_cases hi : r = id
    · subst hi
      rw [Function.update_self]
      cases hp : parentId with
      | none => rfl
      | some p =>
        -- `r` itself: whatever is visible stands below it
        by_contra hne
        have hchecked := h.checked p hp fun heq => hne heq.symm
        exact hchecked.2 (hnew p hp fun heq => hne heq.symm)
    · rw [Function.update_of_ne hi]

theorem Deleted.parentOf_of_some {organizationId i p : Nat} (h : Deleted σ σ' actor id)
    (hp : parentOf σ' organizationId i = some p) :
    i ≠ id ∧ parentOf σ organizationId i = some p := by
  have hi : i ≠ id := by
    rintro rfl
    obtain ⟨row, hrow, _⟩ := parentOf_eq_some.1 hp
    rw [h.gone] at hrow
    cases hrow
  exact ⟨hi, (parentOf_congr (h.row i hi)).symm.trans hp⟩

theorem Deleted.belongs {organizationId i : Nat} (h : Deleted σ σ' actor id) (hne : i ≠ id)
    (hi : Belongs σ organizationId i) : Belongs σ' organizationId i := by
  obtain ⟨row, hrow, horg⟩ := hi
  exact ⟨row, (h.row i hne).trans hrow, horg⟩

theorem Deleted.ground (h : Deleted σ σ' actor id) (hground : Ground σ actor r) :
    r ≠ id ∧ Ground σ' actor r := by
  obtain ⟨row, hrow, hlive, horg, hdept⟩ := hground.placed
  -- the actor's own account is a member of `r`
  have hr : r ≠ id := by
    rintro rfl
    have hsome := h.memberless _ row hrow hdept
    rw [hlive] at hsome
    cases hsome
  refine ⟨hr, ⟨?_, ?_⟩, ?_, ?_⟩
  · exact hground.forest.acyclic.mono fun i p hp => (h.parentOf_of_some hp).2
  · intro i p hp
    obtain ⟨_, hp'⟩ := h.parentOf_of_some hp
    refine h.belongs ?_ (hground.forest.linked i p hp')
    rintro rfl
    obtain ⟨drow, hdrow, _, hparent⟩ := parentOf_eq_some.1 hp'
    exact h.childless i drow hdrow hparent
  · intro u row' d hu hd
    obtain ⟨old, hold, _, ⟨rfl, hne⟩ | ⟨_, hnone⟩⟩ := h.former u row' hu
    · refine h.belongs ?_ (hground.members u row' d hold hd)
      rintro rfl
      exact hne hd
    · rw [hd] at hnone
      cases hnone
  · have hne : row.departmentId ≠ some id := by
      rw [hdept]
      exact fun heq => hr (Option.some.inj heq)
    exact ⟨row, h.others _ row hrow hne, hlive, horg, hdept⟩

theorem Deleted.confined (h : Deleted σ σ' actor id) (hactor : Restricted actor r)
    (hground : Ground σ actor r) :
    Confined σ σ' actor.organizationId r ∧ Ground σ' actor r := by
  obtain ⟨_, hbelow⟩ := (visible_iff hactor).1 h.visible
  obtain ⟨hr, hground'⟩ := h.ground hground
  have htable : ∀ t, t ∉ [Table.departments, .users, .auditLogs] → σ' t = σ t := h.table
  refine ⟨⟨⟨?_, ?_, ?_, ?_⟩, ⟨?_, ?_, ?_, ?_, ?_⟩,
    fun t ht => htable t fun hm => ht (by simp_all)⟩, hground'⟩
  · intro i hne
    have hi : i = id := by
      by_contra hi
      exact hne (h.row i hi)
    subst hi
    refine ⟨.inl ⟨h.visible.belongs, hbelow⟩, fun row hrow => ?_⟩
    rw [h.gone] at hrow
    cases hrow
  · exact fun i p hp hne => absurd (h.parentOf_of_some hp).2 hne
  · intro i hi hnone
    -- a department that is there is not the deleted one
    have hne : i ≠ id := by
      rintro rfl
      obtain ⟨row, hrow, _⟩ := hi
      rw [h.gone] at hrow
      cases hrow
    exact (parentOf_congr (h.row i hne)).symm.trans hnone
  · exact parentOf_congr (h.row r hr)
  · intro u row hu hne
    -- an account that changed was a member of the deleted department
    have hd : row.departmentId = some id := by
      by_contra hd
      exact hne (h.others u row hu hd)
    exact ⟨(hground.members u row id hu hd).unique h.visible.belongs, id, hd, hbelow⟩
  · intro u row d hu hd hnew
    obtain ⟨old, hold, _, ⟨rfl, _⟩ | ⟨_, hnone⟩⟩ := h.former u row hu
    · exact absurd hd (hnew row hold)
    · rw [hd] at hnone
      cases hnone
  · intro u row hu hlive _
    obtain ⟨old, hold, hsame, ⟨rfl, _⟩ | ⟨hd, _⟩⟩ := h.former u row hu
    · exact hold
    · -- the members that are left have been deleted
      have hdeleted := h.memberless u old hold hd
      rw [← hsame, hlive] at hdeleted
      cases hdeleted
  · intro u row roleId _
    unfold Store.get
    rw [htable _ (by simp)]
  · intro k session row hk _ _
    unfold Store.get at hk ⊢
    rwa [htable _ (by simp)]

/-! ### Accounts

Creating and changing an account of the subtree.
-/

theorem Joined.confined {departmentId : Option Nat}
    (h : Joined σ σ' actor id (departmentId.or actor.departmentId)) (hactor : Restricted actor r)
    (hground : Ground σ actor r)
    (hassign : ∀ d, departmentId = some d → Assignable σ actor d) :
    Confined σ σ' actor.organizationId r ∧ Ground σ' actor r := by
  have htable : ∀ t, t ∉ [Table.users, .userRoles, .auditLogs] → σ' t = σ t := h.table
  have hdepts : σ' .departments = σ .departments := htable _ (by simp)
  -- a department of the subtree: the one that is named, or the actor's own
  obtain ⟨d, hd, hbelow⟩ : ∃ d, departmentId.or actor.departmentId = some d ∧
      Below σ actor.organizationId d r := by
    cases hdept : departmentId with
    | none => exact ⟨r, by simp [hactor.department], .refl⟩
    | some d => exact ⟨d, rfl, ((visible_iff hactor).1 (hassign d hdept).1).2⟩
  obtain ⟨new, hnew, horg, hdept, _⟩ := h.joined
  have hold : ∀ u (row : UserRow), σ.get .users u = some row → σ'.get .users u = some row := by
    intro u row hu
    rw [h.row u, hu]
    rintro rfl
    rw [h.fresh] at hu
    cases hu
  refine ⟨⟨.of_eq hdepts, ⟨?_, ?_, ?_, ?_, ?_⟩, fun t ht => htable t fun hm => ht (by simp_all)⟩,
    hground.of_departments hdepts ?_ ?_⟩
  · exact fun u row hu hne => absurd (hold u row hu) hne
  · intro u row d' hu hd' hfresh
    by_cases hid : u = id
    · subst hid
      rw [hnew] at hu
      cases hu
      rw [hdept, hd] at hd'
      cases hd'
      exact ⟨horg, hbelow⟩
    · exact absurd hd' (hfresh row ((h.row u hid).symm.trans hu))
  · intro u row hu _ hnone
    by_cases hid : u = id
    · subst hid
      rw [hnew] at hu
      cases hu
      rw [hdept, hd] at hnone
      cases hnone
    · exact (h.row u hid).symm.trans hu
  · intro u row roleId hu
    refine h.roles u roleId ?_
    rintro rfl
    rw [h.fresh] at hu
    cases hu
  · intro k session row hk _ _
    unfold Store.get at hk ⊢
    rwa [htable _ (by simp)]
  · intro u row d' hu hd'
    by_cases hid : u = id
    · subst hid
      rw [hnew] at hu
      cases hu
      rw [hdept] at hd'
      rw [horg]
      exact h.belongs d' hd'
    · exact hground.members u row d' ((h.row u hid).symm.trans hu) hd'
  · obtain ⟨row, hu, hplaced⟩ := hground.placed
    exact ⟨row, hold _ row hu, hplaced⟩

theorem Edited.confined {departmentId : Option Nat} {row : UserRow}
    (h : Edited σ σ' id departmentId) (hactor : Restricted actor r) (hground : Ground σ actor r)
    (hrow : σ.get .users id = some row) (hinside : Inside σ actor.organizationId r row)
    (hassign : ∀ d, departmentId = some d → Assignable σ actor d ∧
      (actor.userId = id → actor.departmentId = some d))
    (hsessions : ∀ k (session : SessionRow), σ.get .authSessions k = some session →
      session.userId ≠ id → σ'.get .authSessions k = some session)
    (htable : ∀ t, t ∉ [Table.users, .authSessions, .auditLogs] → σ' t = σ t) :
    Confined σ σ' actor.organizationId r ∧ Ground σ' actor r := by
  have hdepts : σ' .departments = σ .departments := htable _ (by simp)
  obtain ⟨old, new, hold, hnew, _, hlive, horg, hdept, hbelongs⟩ := h.edited
  rw [hrow] at hold
  cases hold
  have hnamed : ∀ d, departmentId = some d → Below σ actor.organizationId d r :=
    fun d hd => ((visible_iff hactor).1 (hassign d hd).1.1).2
  refine ⟨⟨.of_eq hdepts, ⟨?_, ?_, ?_, ?_, ?_⟩, fun t ht => htable t fun hm => ht (by simp_all)⟩,
    hground.of_departments hdepts ?_ ?_⟩
  · intro u row' hu hne
    have hid : u = id := by
      by_contra hid
      exact hne ((h.row u hid).trans hu)
    subst hid
    rw [hrow] at hu
    cases hu
    exact hinside
  · intro u row' d hu hd hset
    by_cases hid : u = id
    · subst hid
      rw [hnew] at hu
      cases hu
      rw [hdept] at hd
      rcases Option.or_eq_some_iff.1 hd with hd | ⟨_, hd⟩
      · exact ⟨horg.trans hinside.1, hnamed d hd⟩
      · exact absurd hd (hset row hrow)
    · exact absurd hd (hset row' ((h.row u hid).symm.trans hu))
  · intro u row' hu _ hnone
    by_cases hid : u = id
    · subst hid
      rw [hnew] at hu
      cases hu
      -- an account of the subtree keeps a department
      obtain ⟨_, d, hd, _⟩ := hinside
      rw [hdept, hd] at hnone
      exact absurd (Option.or_eq_none_iff.1 hnone).2 (by simp)
    · exact (h.row u hid).symm.trans hu
  · intro u row' roleId _
    unfold Store.get
    rw [htable _ (by simp)]
  · intro k session row' hk hu hout
    refine hsessions k session hk ?_
    rintro rfl
    rw [hrow] at hu
    cases hu
    exact hout hinside
  · intro u row' d hu hd
    by_cases hid : u = id
    · subst hid
      rw [hnew] at hu
      cases hu
      rw [horg]
      rw [hdept] at hd
      rcases Option.or_eq_some_iff.1 hd with hd | ⟨_, hd⟩
      · exact hbelongs d hd
      · exact hground.members u row d hrow hd
    · exact hground.members u row' d ((h.row u hid).symm.trans hu) hd
  · obtain ⟨own, hown, howned⟩ := hground.placed
    by_cases hid : actor.userId = id
    · subst hid
      rw [hrow] at hown
      cases hown
      refine ⟨new, hnew, hlive, horg.trans howned.2.1, ?_⟩
      rw [hdept, howned.2.2]
      -- nobody gives the own account another department
      cases hd : departmentId with
      | none => rfl
      | some d =>
        have hself := (hassign d hd).2 rfl
        rw [hactor.department] at hself
        exact hself.symm
    · exact ⟨own, (h.row _ hid).trans hown, howned⟩

end Requests

/-! ## Sequences of requests

The induction on the sequence.
-/

section Sequences

variable {n n' : Nat} {s s' : Server Table} {c : Conn Table} {env : External} {actor : ActorContext}
  {r : Nat} {req : OrganizationRequest}

/-- **Every successful request is confined to the subtree**, and leaves the ground for the next. -/
theorem OrganizationRequest.confined (hactor : Restricted actor r)
    (hground : Ground s.store actor r) (h : Ends n (req.perform env actor) ⟨none, s⟩ () c) :
    Confined s.store c.server.store actor.organizationId r ∧ Ground c.server.store actor r := by
  cases req with
  | createDepartment req =>
    obtain ⟨_, c₁, hcreate, hret⟩ := ends_bind.1 h
    obtain ⟨_, rfl⟩ := ends_ret.1 hret
    rw [Services.Departments.create_eq] at hcreate
    obtain ⟨id, c₂, hcreating, hget⟩ := ends_bind.1 hcreate
    have hlast := hget.spared_nothing fun _ => Services.Departments.get_within actor id
    rw [hlast.store]
    exact (Services.Departments.created_of_ends hcreating).2.confined hactor hground
  | updateDepartment id req =>
    obtain ⟨_, c₁, hupdate, hret⟩ := ends_bind.1 h
    obtain ⟨_, rfl⟩ := ends_ret.1 hret
    rw [Services.Departments.update_eq] at hupdate
    obtain ⟨_, c₂, hupdating, hget⟩ := ends_bind.1 hupdate
    have hlast := hget.spared_nothing fun _ => Services.Departments.get_within actor id
    rw [hlast.store]
    exact (Services.Departments.updated_of_ends hupdating).2.confined hactor hground
  | deleteDepartment id =>
    exact (Services.Departments.deleted_of_ends h).2.1.confined hactor hground
  | createUser req canGrantSuperAdmin canAssignDepartment =>
    obtain ⟨_, c₁, hcreate, hret⟩ := ends_bind.1 h
    obtain ⟨_, rfl⟩ := ends_ret.1 hret
    obtain ⟨_, hassign, id, hjoined⟩ := Services.Users.joined_of_ends hcreate
    exact hjoined.confined hactor hground hassign
  | updateUser id req canGrantSuperAdmin canAssignDepartment =>
    obtain ⟨_, c₁, hupdate, hret⟩ := ends_bind.1 h
    obtain ⟨_, rfl⟩ := ends_ret.1 hret
    obtain ⟨_, ⟨row, hrow, hvisible⟩, hassign, hedited, hsessions, htable⟩ :=
      Services.Users.edited_of_ends hupdate
    exact hedited.confined hactor hground hrow (inside_of_isVisible hactor hvisible) hassign
      hsessions htable

/-- **A restricted administrator stays inside its subtree.** Whatever its requests change lies in
the subtree as it is at their time, and what lies outside is the same after all of them. -/
theorem subtreeFrame {l : List (Served Table Unit OrganizationRequest)}
    (hactor : Restricted actor r) (hground : Ground s.store actor r)
    (h : Serves (OrganizationRequest.perform env actor) n s l n' s') :
    (∀ e ∈ l, Confined e.before.store e.after.store actor.organizationId r) ∧
      SameOutside s.store s'.store actor.organizationId r := by
  induction h with
  | nil n s => exact ⟨by simp, .refl s.store _⟩
  | wait d h ih => exact ih hground
  | @request n n' s s' l req reply c hends h ih =>
    obtain ⟨hconfined, hground'⟩ := OrganizationRequest.confined hactor hground hends
    obtain ⟨hall, hrest⟩ := ih hground'
    refine ⟨fun e he => ?_, (hconfined.sameOutside hground hground').trans hrest⟩
    rcases List.mem_cons.1 he with rfl | he
    · exact hconfined
    · exact hall e he

end Sequences

/-- Sales, with its manager, is a subtree of the sample chart. -/
theorem Sample.office_ground : Ground Sample.office.store Sample.manager 2 := by
  have hmembers : ∀ e ∈ (Sample.office.store.rows .users : List (Nat × UserRow)),
      ∀ d, e.2.departmentId = some d → e.2.organizationId = 1 ∧ d ∈ [1, 2, 3, 4] := by
    decide +kernel
  refine ⟨Sample.office_forest, fun u row d hrow hd => ?_, ?_⟩
  · obtain ⟨horg, hmem⟩ := hmembers (u, row) (Store.mem_rows.2 hrow) d hd
    have hbelongs := Sample.office_belongs hmem
    rwa [← horg] at hbelongs
  · have hexists : ∃ e ∈ (Sample.office.store.rows .users : List (Nat × UserRow)),
        e.1 = Sample.manager.userId ∧ e.2.deletedAt = none ∧ e.2.organizationId = 1 ∧ e.2.departmentId = some 2 := by
      decide +kernel
    obtain ⟨e, he, hid, hplaced⟩ := hexists
    refine ⟨e.2, ?_, hplaced⟩
    have hrow : Sample.office.store.get .users e.1 = some e.2 := Store.mem_rows.1 he
    rwa [hid] at hrow

/-- The manager closes the northern branch: support and headquarters are as they were. -/
theorem subtreeFrame_office : SameOutside Sample.office.store
    (((OrganizationRequest.updateDepartment 3 ⟨none, none, none, some "inactive"⟩).perform
      Sample.external Sample.manager).run 0 ⟨none, Sample.office⟩).2.server.store 1 2 := by
  have hends : Ends 0 ((OrganizationRequest.updateDepartment 3
      ⟨none, none, none, some "inactive"⟩).perform Sample.external Sample.manager)
      ⟨none, Sample.office⟩ () _ := ends_of_run (by decide +kernel)
  exact (subtreeFrame ⟨rfl, rfl⟩ Sample.office_ground (.request hends (.nil _ _))).2

end ArcAdmin
