import ArcAdmin.Proofs.DepartmentDeletion

/-!
# Where accounts are placed

An account that is created or updated may be given a department. A department that the request names
passes `validate_assignment`: it is visible to the actor and active. A new account for which none is
named gets the actor's own, which passes nothing.

* **`OrganizationRequest.assigns`** — the department that a request gives to an account;
* **`placement`** — it is visible and active, unless it is the actor's own and is not;
* **`placement_inactive`** — an account in a department that has been closed.
-/

namespace ArcAdmin

open ReadCommitted
open Repositories.Departments

/-- **The department that a request gives to an account**: the one that it names, and for a new
account the actor's own if it names none. -/
def OrganizationRequest.assigns (actor : ActorContext) : OrganizationRequest → Option Nat
  | .createUser req _ _ => req.departmentId.or actor.departmentId
  | .updateUser _ req _ _ => req.departmentId
  | .createDepartment _ | .updateDepartment _ _ | .deleteDepartment _ => none

/-- The department that a new account gets from the actor. -/
def OrganizationRequest.inherits (actor : ActorContext) : OrganizationRequest → Option Nat
  | .createUser req _ _ => if req.departmentId.isNone then actor.departmentId else none
  | .updateUser _ _ _ _ | .createDepartment _ | .updateDepartment _ _ | .deleteDepartment _ => none

/-- **The actor's own department may be passed on**: it is active, and stands below a root if the
actor sees everything that does. -/
structure Inheritable (σ : Store Table) (actor : ActorContext) (id : Nat) : Prop where
  active : ∃ row : DepartmentRow, σ.get .departments id = some row ∧ row.status = "active"
  connected : isWide actor = true → Connected σ actor.organizationId id

section Placement

variable {n : Nat} {s : Server Table} {c : Conn Table} {env : External} {actor : ActorContext}
  {req : OrganizationRequest}

/-- The own department may be assigned if and only if it may be passed on. -/
theorem assignable_own {σ : Store Table} {id : Nat} (hown : actor.departmentId = some id)
    (hbelongs : Belongs σ actor.organizationId id) :
    Assignable σ actor id ↔ Inheritable σ actor id := by
  have hvisible : Visible σ actor id ↔
      (isWide actor = true → Connected σ actor.organizationId id) := by
    unfold Visible Repositories.Departments.Top
    cases hwide : isWide actor with
    | true =>
      simp only [Bool.true_or, if_true, forall_const]
      exact ⟨fun ⟨top, ⟨htop, hroot⟩, hbelow⟩ => ⟨top, htop, hroot, hbelow⟩,
        fun ⟨top, htop, hroot, hbelow⟩ => ⟨top, ⟨htop, hroot⟩, hbelow⟩⟩
    | false =>
      -- the view of such an actor starts at its own department
      refine ⟨fun _ h => (by cases h), fun _ => ⟨id, ⟨hbelongs, hown⟩, ?_⟩⟩
      split
      · exact .refl
      · rfl
  constructor
  · rintro ⟨hsees, hactive⟩
    exact ⟨hactive, hvisible.1 hsees⟩
  · rintro ⟨hactive, hconnected⟩
    exact ⟨hvisible.2 hconnected, hactive⟩

/-- **Accounts are placed in visible and active departments** if and only if the actor's own
department, where it is passed on, may be. -/
theorem placement (h : Ends n (req.perform env actor) ⟨none, s⟩ () c) :
    (∀ d, req.assigns actor = some d → Assignable s.store actor d) ↔
      ∀ d, req.inherits actor = some d → Inheritable s.store actor d := by
  cases req with
  | createUser req canGrantSuperAdmin canAssignDepartment =>
    obtain ⟨_, c₁, hcreate, hret⟩ := ends_bind.1 h
    obtain ⟨_, rfl⟩ := ends_ret.1 hret
    obtain ⟨_, hassign, id, hjoined⟩ := Services.Users.joined_of_ends hcreate
    simp only [OrganizationRequest.assigns, OrganizationRequest.inherits]
    cases hdept : req.departmentId with
    | some d =>
      refine ⟨fun _ d' hd' => (by cases hd'), fun _ d' hd' => hassign d' ?_⟩
      rw [hdept]
      exact hd'
    | none =>
      have hown : ∀ d, actor.departmentId = some d →
          (Assignable s.store actor d ↔ Inheritable s.store actor d) := by
        intro d hd
        refine assignable_own hd (hjoined.belongs d ?_)
        rw [hdept, hd]
        rfl
      constructor
      · exact fun hall d hd => (hown d hd).1 (hall d hd)
      · exact fun hall d hd => (hown d hd).2 (hall d hd)
  | updateUser id req canGrantSuperAdmin canAssignDepartment =>
    obtain ⟨_, c₁, hupdate, hret⟩ := ends_bind.1 h
    obtain ⟨_, rfl⟩ := ends_ret.1 hret
    obtain ⟨_, _, hassign, _⟩ := Services.Users.edited_of_ends hupdate
    exact ⟨fun _ d hd => (by cases hd), fun _ d hd => (hassign d hd).1⟩
  | createDepartment req => exact ⟨fun _ d hd => (by cases hd), fun _ d hd => (by cases hd)⟩
  | updateDepartment id req => exact ⟨fun _ d hd => (by cases hd), fun _ d hd => (by cases hd)⟩
  | deleteDepartment id => exact ⟨fun _ d hd => (by cases hd), fun _ d hd => (by cases hd)⟩

end Placement

/-! ## A department that has been closed

A manager whose own department has been closed takes somebody on.
-/

/-- A new account for which no department is named. -/
def Sample.newcomer : OrganizationRequest :=
  .createUser ⟨"newcomer", "a long password", "Newcomer", none, none, none, none⟩ false false

/-- The manager of sales, an active department, takes somebody on. -/
theorem placement_office : Sample.newcomer.assigns Sample.manager = some 2 ∧
    Assignable Sample.office.store Sample.manager 2 := by
  have hends : Ends 0 (Sample.newcomer.perform Sample.external Sample.manager)
      ⟨none, Sample.office⟩ () _ := ends_of_run (by decide +kernel)
  have hactive : ∃ e ∈ (Sample.office.store.rows .departments : List (Nat × DepartmentRow)),
      some e.1 = Sample.manager.departmentId ∧ e.2.status = "active" := by
    decide +kernel
  refine ⟨rfl, (placement hends).2 (fun d hd => ?_) 2 rfl⟩
  obtain ⟨e, he, hid, hstatus⟩ := hactive
  have hd' : e.1 = d := Option.some.inj (hid.trans hd)
  subst hd'
  exact ⟨⟨e.2, Store.mem_rows.1 he, hstatus⟩, fun hwide => (by cases hwide)⟩

/-- Headquarters closes the sales department. -/
def Sample.salesClosed : Server Table :=
  play Sample.serveActor 0 Sample.office
    [.request (Sample.administrator, .updateDepartment 2 ⟨none, none, none, some "inactive"⟩)]

/-- **An account is placed in a department that has been closed.** -/
theorem placement_inactive :
    (∃ m, Reachable Sample.serveActor Sample.office (Config.rest m Sample.salesClosed)) ∧
      (∃ c, Ends 1 (Sample.newcomer.perform Sample.external Sample.manager)
        ⟨none, Sample.salesClosed⟩ () c) ∧
      Sample.newcomer.assigns Sample.manager = some 2 ∧
      ¬ Assignable Sample.salesClosed.store Sample.manager 2 := by
  have hruns : ((Sample.newcomer.perform Sample.external Sample.manager).run 1
      ⟨none, Sample.salesClosed⟩).1 = .ok () := by
    decide +kernel
  have hclosed : ∀ e ∈ (Sample.salesClosed.store.rows .departments : List (Nat × DepartmentRow)),
      some e.1 = Sample.manager.departmentId → e.2.status ≠ "active" := by
    decide +kernel
  refine ⟨reachable_play Sample.serveActor _ _, ⟨_, ends_of_run hruns⟩, rfl, ?_⟩
  rintro ⟨_, row, hrow, hstatus⟩
  exact hclosed ((2 : Nat), row) (Store.mem_rows.2 hrow) rfl hstatus

end ArcAdmin
