import ArcAdmin.Repositories.Departments
import Mathlib.Data.List.Perm.Subperm

/-!
# What the recursive department query returns

`visible_departments` is computed round by round. It holds the departments from which parents lead
up to the department it starts at, all within one organization, and nothing else.

* **`Under`** — a department stands below another one;
* **`mem_visibleDepartments`** — the query returns exactly those;
* **`SameDepartments`** — two states with the same departments of one organization, and
  **`visibleDepartments_congr`** — the query returns the same in both.
-/

namespace ArcAdmin.Repositories.Departments

open ReadCommitted

/-- The department stands below `top`, or is `top`, within one organization. -/
inductive Under (s : Snap) (organizationId top : Nat) : Nat → Prop where
  | top {row : DepartmentRow} (hrow : s.store.get .departments top = some row)
      (horg : row.organizationId = organizationId) : Under s organizationId top top
  | child {parent id : Nat} {row : DepartmentRow} (hparent : Under s organizationId top parent)
      (hrow : s.store.get .departments id = some row)
      (horg : row.organizationId = organizationId) (hid : row.parentId = some parent) :
      Under s organizationId top id

section Closure

variable {s : Snap} {organizationId : Nat}

theorem mem_children {parents : List Nat} {id : Nat} {row : DepartmentRow} :
    (id, row) ∈ children s organizationId parents ↔
      s.store.get .departments id = some row ∧ row.organizationId = organizationId ∧
        ∃ parent ∈ parents, row.parentId = some parent := by
  have hrows : (id, row) ∈ s.store.rows .departments ↔
      s.store.get .departments id = some row := Store.mem_rows
  unfold children
  rw [List.mem_filter, hrows, Bool.and_eq_true, beq_iff_eq]
  refine and_congr_right fun _ => and_congr_right fun _ => ?_
  cases row.parentId with
  | none => simp
  | some parent => simp

/-- The departments that are new in a round. -/
theorem mem_new {found last : List Nat} {id : Nat} :
    id ∈ ((children s organizationId last).map (·.1)).filter (fun id => !found.contains id) ↔
      (∃ row, (id, row) ∈ children s organizationId last) ∧ id ∉ found := by
  rw [List.mem_filter, List.mem_map]
  refine and_congr ⟨?_, ?_⟩ (by simp)
  · rintro ⟨⟨i, row⟩, hmem, rfl⟩
    exact ⟨row, hmem⟩
  · rintro ⟨row, hmem⟩
    exact ⟨(id, row), hmem, rfl⟩

theorem subset_closure (fuel : Nat) (found last : List Nat) :
    ∀ id ∈ found, id ∈ closure s organizationId fuel found last := by
  induction fuel generalizing found last with
  | zero => exact fun _ h => h
  | succ fuel ih =>
    intro id hid
    unfold closure
    simp only
    split
    · exact hid
    · exact ih _ _ id (List.mem_append_left _ hid)

/-- **Nothing else is returned** than what is found from the start. -/
theorem closure_sound {P : Nat → Prop} (hstep : ∀ parent id row, P parent →
      s.store.get .departments id = some row → row.organizationId = organizationId →
      row.parentId = some parent → P id)
    (fuel : Nat) {found last : List Nat} (hfound : ∀ id ∈ found, P id)
    (hlast : ∀ id ∈ last, id ∈ found) :
    ∀ id ∈ closure s organizationId fuel found last, P id := by
  induction fuel generalizing found last with
  | zero => exact hfound
  | succ fuel ih =>
    intro id hid
    unfold closure at hid
    simp only at hid
    split at hid
    · exact hfound id hid
    · refine ih (fun i hi => ?_) (fun i hi => List.mem_append_right _ hi) id hid
      rcases List.mem_append.1 hi with hold | hnew
      · exact hfound i hold
      · obtain ⟨⟨row, hmem⟩, _⟩ := mem_new.1 hnew
        obtain ⟨hrow, horg, parent, hparent, hid⟩ := mem_children.1 hmem
        exact hstep parent i row (hfound parent (hlast parent hparent)) hrow horg hid

/-- Every child of a department in `found` is in `found`, unless it is still to be looked for. -/
def ClosedBut (s : Snap) (organizationId : Nat) (found last : List Nat) : Prop :=
  ∀ parent ∈ found, parent ∉ last → ∀ id row, s.store.get .departments id = some row →
    row.organizationId = organizationId → row.parentId = some parent → id ∈ found

/-- **The rounds end with a closed set**: one for each department is enough. -/
theorem closure_closed (fuel : Nat) {found last : List Nat} (hnodup : found.Nodup)
    (hlast : ∀ id ∈ last, id ∈ found)
    (hknown : ∀ id ∈ found, id ∈ (s.store.rows .departments).map Prod.fst)
    (hclosed : ClosedBut s organizationId found last)
    (hfuel : (s.store.rows .departments).length ≤ fuel + found.length) :
    ClosedBut s organizationId (closure s organizationId fuel found last) [] := by
  induction fuel generalizing found last with
  | zero =>
    -- every department has been found
    intro parent hparent _ id row hrow _ _
    have hsub : found.Subperm ((s.store.rows .departments).map Prod.fst) :=
      List.subperm_of_subset hnodup hknown
    have hperm := hsub.perm_of_length_le (by rw [List.length_map]; omega)
    exact hperm.mem_iff.2 (List.mem_map.2 ⟨(id, row), Store.mem_rows.2 hrow, rfl⟩)
  | succ fuel ih =>
    unfold closure
    simp only
    split
    · next hempty =>
      intro parent hparent _ id row hrow horg hid
      by_cases hin : parent ∈ last
      · by_contra hno
        have hnew := mem_new.2 ⟨⟨row, mem_children.2 ⟨hrow, horg, parent, hin, hid⟩⟩, hno⟩
        rw [List.isEmpty_iff.1 hempty] at hnew
        cases hnew
      · exact hclosed parent hparent hin id row hrow horg hid
    · next hne =>
      have hfst : ((children s organizationId last).map (·.1)).Nodup :=
        ((List.filter_sublist (l := s.store.rows .departments)).map Prod.fst).nodup
          (Store.rows_keys_nodup s.store .departments)
      refine ih ?_ (fun i hi => List.mem_append_right _ hi) (fun i hi => ?_) ?_ ?_
      · refine List.nodup_append.2 ⟨hnodup, hfst.filter _, fun a ha b hb hab => ?_⟩
        subst hab
        exact (mem_new.1 hb).2 ha
      · rcases List.mem_append.1 hi with hold | hnew
        · exact hknown i hold
        · obtain ⟨⟨row, hmem⟩, _⟩ := mem_new.1 hnew
          exact List.mem_map.2 ⟨(i, row), Store.mem_rows.2 (mem_children.1 hmem).1, rfl⟩
      · intro parent hparent hno id row hrow horg hid
        rcases List.mem_append.1 hparent with hold | hnew
        · by_cases hin : parent ∈ last
          · by_cases hknown : id ∈ found
            · exact List.mem_append_left _ hknown
            · exact List.mem_append_right _
                (mem_new.2 ⟨⟨row, mem_children.2 ⟨hrow, horg, parent, hin, hid⟩⟩, hknown⟩)
          · exact List.mem_append_left _ (hclosed parent hold hin id row hrow horg hid)
        · exact absurd hnew hno
      · have hpos := List.length_pos_of_ne_nil fun h => hne (List.isEmpty_iff.2 h)
        rw [List.length_append]
        omega

/-- The rounds from given departments find what stands below them. -/
theorem mem_closure {departmentId : Option Nat} {roots : List Nat} {id : Nat}
    (hroots : ∀ i, i ∈ roots ↔ departmentId = some i ∧
      ∃ row, s.store.get .departments i = some row ∧ row.organizationId = organizationId)
    (hnodup : roots.Nodup) :
    id ∈ closure s organizationId (s.store.rows .departments).length roots roots ↔
      ∃ top, departmentId = some top ∧ Under s organizationId top id := by
  constructor
  · refine fun hid => closure_sound (P := fun i => ∃ top, departmentId = some top ∧
      Under s organizationId top i) ?_ _ (fun i hi => ?_) (fun _ h => h) id hid
    · rintro parent i row ⟨top, hdep, hunder⟩ hrow horg hparent
      exact ⟨top, hdep, .child hunder hrow horg hparent⟩
    · obtain ⟨hdep, row, hrow, horg⟩ := (hroots i).1 hi
      exact ⟨i, hdep, .top hrow horg⟩
  · rintro ⟨top, hdep, hunder⟩
    have hclosed : ClosedBut s organizationId
        (closure s organizationId (s.store.rows .departments).length roots roots) [] := by
      refine closure_closed _ hnodup (fun _ h => h) (fun i hi => ?_) (fun _ h hno => absurd h hno)
        (Nat.le_add_right _ _)
      obtain ⟨_, row, hrow, _⟩ := (hroots i).1 hi
      exact List.mem_map.2 ⟨(i, row), Store.mem_rows.2 hrow, rfl⟩
    induction hunder with
    | top hrow horg => exact subset_closure _ _ _ _ ((hroots _).2 ⟨hdep, _, hrow, horg⟩)
    | child _ hrow horg hparent ih => exact hclosed _ ih (by simp) _ _ hrow horg hparent

end Closure

/-- **`visible_departments`** holds the department and everything below it. -/
theorem mem_visibleDepartments {s : Snap} {organizationId id : Nat} {departmentId : Option Nat} :
    id ∈ visibleDepartments s organizationId departmentId ↔
      ∃ top, departmentId = some top ∧ Under s organizationId top id := by
  refine mem_closure (fun i => ?_) ?_
  · rw [List.mem_map]
    constructor
    · rintro ⟨⟨j, row⟩, hmem, rfl⟩
      obtain ⟨hrow, hcond⟩ := List.mem_filter.1 hmem
      simp only [Bool.and_eq_true, beq_iff_eq] at hcond
      exact ⟨hcond.1.symm, row, Store.mem_rows.1 hrow, hcond.2⟩
    · rintro ⟨hdep, row, hrow, horg⟩
      refine ⟨(i, row), List.mem_filter.2 ⟨Store.mem_rows.2 hrow, ?_⟩, rfl⟩
      simp [hdep, horg]
  · exact ((List.filter_sublist (l := s.store.rows .departments)).map Prod.fst).nodup
      (Store.rows_keys_nodup s.store .departments)

/-! ## States with the same departments

The query depends on the departments of one organization only, so changes elsewhere do not change
what an actor sees.
-/

/-- The two states have the same departments of one organization. -/
def SameDepartments (organizationId : Nat) (s s' : Snap) : Prop :=
  ∀ (id : Nat) (row : DepartmentRow), row.organizationId = organizationId →
    (s.store.get .departments id = some row ↔ s'.store.get .departments id = some row)

theorem SameDepartments.symm {organizationId : Nat} {s s' : Snap}
    (h : SameDepartments organizationId s s') : SameDepartments organizationId s' s :=
  fun id row horg => (h id row horg).symm

theorem Under.congr {organizationId top id : Nat} {s s' : Snap}
    (h : SameDepartments organizationId s s') (hunder : Under s organizationId top id) :
    Under s' organizationId top id := by
  induction hunder with
  | top hrow horg => exact .top ((h _ _ horg).1 hrow) horg
  | child _ hrow horg hparent ih => exact .child ih ((h _ _ horg).1 hrow) horg hparent

/-- **The query does not look at other organizations.** -/
theorem visibleDepartments_congr {organizationId : Nat} {s s' : Snap}
    (h : SameDepartments organizationId s s') (departmentId : Option Nat) (id : Nat) :
    id ∈ visibleDepartments s organizationId departmentId ↔
      id ∈ visibleDepartments s' organizationId departmentId := by
  rw [mem_visibleDepartments, mem_visibleDepartments]
  refine exists_congr fun top => and_congr_right fun _ => ?_
  exact ⟨Under.congr h, Under.congr h.symm⟩

theorem visibleDepartments_contains_congr {organizationId : Nat} {s s' : Snap}
    (h : SameDepartments organizationId s s') (departmentId : Option Nat) :
    (visibleDepartments s organizationId departmentId).contains =
      (visibleDepartments s' organizationId departmentId).contains := by
  funext id
  rw [Bool.eq_iff_iff, List.contains_iff_mem, List.contains_iff_mem]
  exact visibleDepartments_congr h departmentId id

end ArcAdmin.Repositories.Departments
