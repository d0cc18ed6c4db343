import ArcAdmin.Forest
import ArcAdmin.Sample
import ArcAdmin.Proofs.Hierarchy
import ArcAdmin.Proofs.Footprints
import ArcAdmin.ReadCommitted.Alone

/-!
# The department tree

The departments of an organization stand in a forest, and three queries walk through it: what an
actor sees, what stands below a department, and whether a new parent would close a cycle. They never
end on a cycle; without one they return exactly the departments that parents connect.

* **`DepartmentForest`** — the departments of one organization form a forest;
* **`mem_visible`**, **`mem_descendants`** — what the queries return, and that they end;
* **`cycleTest`** — the cycle test is exact, and an update keeps the forest.
-/

namespace ArcAdmin.Repositories.Departments

open ReadCommitted

/-! ## Departments and their parents

The tree of one organization as a partial map from a department to its parent, to which
`ArcAdmin.Forest` applies.
-/

/-- The department is one of the organization. -/
def Belongs (σ : Store Table) (organizationId id : Nat) : Prop :=
  ∃ row : DepartmentRow, σ.get .departments id = some row ∧ row.organizationId = organizationId

/-- The parents within one organization. -/
def parentOf (σ : Store Table) (organizationId id : Nat) : Option Nat :=
  ((σ.get .departments id).filter fun d : DepartmentRow => d.organizationId == organizationId).bind
    fun d : DepartmentRow => d.parentId

/-- `a` is `b`, or a department below it. -/
abbrev Below (σ : Store Table) (organizationId a b : Nat) : Prop :=
  Forest.Under (parentOf σ organizationId) a b

/-- **The departments of an organization form a forest**: no department is its own ancestor, and
parents exist in the same organization. -/
structure DepartmentForest (σ : Store Table) (organizationId : Nat) : Prop where
  acyclic : Forest.Acyclic (parentOf σ organizationId)
  linked : ∀ id parent, parentOf σ organizationId id = some parent → Belongs σ organizationId parent

/-- The department stands below one without a parent, its root. -/
def Connected (σ : Store Table) (organizationId id : Nat) : Prop :=
  ∃ root, Belongs σ organizationId root ∧ parentOf σ organizationId root = none ∧
    Below σ organizationId id root

section Parents

variable {σ σ' : Store Table} {organizationId id parent top : Nat}

theorem parentOf_eq {row : DepartmentRow} (hrow : σ.get .departments id = some row)
    (horg : row.organizationId = organizationId) : parentOf σ organizationId id = row.parentId := by
  have hfilter : Option.filter (fun d : DepartmentRow => d.organizationId == organizationId)
      (some row) = some row := by simp [horg]
  unfold parentOf
  rw [hrow, hfilter]
  rfl

theorem parentOf_eq_some : parentOf σ organizationId id = some parent ↔
    ∃ row : DepartmentRow, σ.get .departments id = some row ∧
      row.organizationId = organizationId ∧ row.parentId = some parent := by
  unfold parentOf
  rw [Option.bind_eq_some_iff]
  constructor
  · rintro ⟨row, hfilter, hparent⟩
    obtain ⟨hrow, horg⟩ := Option.filter_eq_some_iff.1 hfilter
    exact ⟨row, hrow, beq_iff_eq.1 horg, hparent⟩
  · rintro ⟨row, hrow, horg, hparent⟩
    exact ⟨row, Option.filter_eq_some_iff.2 ⟨hrow, beq_iff_eq.2 horg⟩, hparent⟩

theorem Belongs.of_child (h : parentOf σ organizationId id = some parent) :
    Belongs σ organizationId id := by
  obtain ⟨row, hrow, horg, _⟩ := parentOf_eq_some.1 h
  exact ⟨row, hrow, horg⟩

/-- What stands below a department is of the same organization. -/
theorem Belongs.of_below (htop : Belongs σ organizationId top)
    (h : Below σ organizationId id top) : Belongs σ organizationId id := by
  rcases Relation.ReflTransGen.cases_head h with rfl | ⟨parent, hparent, _⟩
  · exact htop
  · exact .of_child hparent

/-- **The inductive and the relational reading agree.** -/
theorem under_iff {s : Snap} :
    Under s organizationId top id ↔
      Belongs s.store organizationId top ∧ Below s.store organizationId id top := by
  constructor
  · intro h
    induction h with
    | top hrow horg => exact ⟨⟨_, hrow, horg⟩, .refl⟩
    | child _ hrow horg hid ih =>
      exact ⟨ih.1, .head (parentOf_eq_some.2 ⟨_, hrow, horg, hid⟩) ih.2⟩
  · rintro ⟨⟨row, hrow, horg⟩, h⟩
    induction h using Relation.ReflTransGen.head_induction_on with
    | refl => exact .top hrow horg
    | head hparent _ ih =>
      obtain ⟨row', hrow', horg', hid⟩ := parentOf_eq_some.1 hparent
      exact .child ih hrow' horg' hid

/-- **Every department is connected to its root.** -/
theorem DepartmentForest.connected (h : DepartmentForest σ organizationId)
    (hid : Belongs σ organizationId id) : Connected σ organizationId id := by
  -- the departments of the organization
  let nodes := ((σ.rows .departments).filter fun e : Nat × DepartmentRow =>
    e.2.organizationId == organizationId).map Prod.fst
  have hnodes : ∀ i, i ∈ nodes ↔ Belongs σ organizationId i := by
    intro i
    constructor
    · intro hi
      obtain ⟨⟨j, row⟩, hmem, rfl⟩ := List.mem_map.1 hi
      obtain ⟨hrow, horg⟩ := List.mem_filter.1 hmem
      exact ⟨row, Store.mem_rows.1 hrow, beq_iff_eq.1 horg⟩
    · rintro ⟨row, hrow, horg⟩
      exact List.mem_map.2 ⟨(i, row), List.mem_filter.2 ⟨Store.mem_rows.2 hrow, by simp [horg]⟩, rfl⟩
  obtain ⟨root, hbelow, hroot⟩ := h.acyclic.rooted
    (fun a _ b hab => (hnodes b).2 (h.linked a b hab)) ((hnodes id).2 hid)
  refine ⟨root, ?_, hroot, hbelow⟩
  rcases Relation.ReflTransGen.cases_tail hbelow with rfl | ⟨child, _, hchild⟩
  · exact hid
  · exact h.linked child root hchild

end Parents

/-! ## The recursion

A level of the recursion holds the children of the level before, so a level that is never empty is
a chain of any length. That takes a cycle.
-/

section Levels

variable {s : Snap} {organizationId : Nat}

theorem mem_children_iff {level : List (Nat × DepartmentRow)} {id : Nat} {row : DepartmentRow} :
    (id, row) ∈ children s organizationId (level.map (·.1)) ↔
      s.store.get .departments id = some row ∧
        ∃ e ∈ level, parentOf s.store organizationId id = some e.1 := by
  rw [mem_children]
  refine and_congr_right fun hrow => ?_
  constructor
  · rintro ⟨horg, parent, hmem, hparent⟩
    obtain ⟨e, he, rfl⟩ := List.mem_map.1 hmem
    exact ⟨e, he, (parentOf_eq hrow horg).trans hparent⟩
  · rintro ⟨e, he, hparent⟩
    obtain ⟨row', hrow', horg, hid⟩ := parentOf_eq_some.1 hparent
    rw [hrow] at hrow'
    cases hrow'
    exact ⟨horg, e.1, List.mem_map_of_mem he, hid⟩

/-- **What the recursion returns**: the first level and everything below it. -/
theorem mem_levels {fuel : Nat} {level rows : List (Nat × DepartmentRow)}
    (h : levels s organizationId true fuel level = some rows)
    (hlevel : ∀ e ∈ level, s.store.get .departments e.1 = some e.2) {id : Nat}
    {row : DepartmentRow} : (id, row) ∈ rows ↔ s.store.get .departments id = some row ∧
      ∃ e ∈ level, Below s.store organizationId id e.1 := by
  induction fuel generalizing level rows with
  | zero =>
    cases level with
    | nil =>
      cases h
      simp
    | cons e level => cases h
  | succ fuel ih =>
    cases level with
    | nil =>
      cases h
      simp
    | cons e level =>
      obtain ⟨rest, hrest, rfl⟩ := Option.map_eq_some_iff.1 h
      have hnext := ih hrest fun f hf => (mem_children_iff.1 hf).1
      rw [List.mem_append, hnext]
      constructor
      · rintro (hmem | ⟨hrow, f, hf, hbelow⟩)
        · exact ⟨hlevel _ hmem, _, hmem, .refl⟩
        · obtain ⟨_, g, hg, hparent⟩ := mem_children_iff.1 hf
          exact ⟨hrow, g, hg, hbelow.tail hparent⟩
      · rintro ⟨hrow, g, hg, hbelow⟩
        rcases Relation.ReflTransGen.cases_tail hbelow with heq | ⟨child, hchild, hparent⟩
        · have hget := hlevel g hg
          rw [heq, hrow] at hget
          cases hget
          subst heq
          exact .inl hg
        · obtain ⟨row', hrow', _⟩ := parentOf_eq_some.1 hparent
          exact .inr ⟨hrow, (child, row'), mem_children_iff.2 ⟨hrow', g, hg, hparent⟩, hchild⟩

/-- A recursion that does not end has found a chain of any length. -/
theorem chain_of_levels {fuel : Nat} {level : List (Nat × DepartmentRow)}
    (h : levels s organizationId true fuel level = none)
    (hlevel : ∀ e ∈ level, s.store.get .departments e.1 = some e.2) :
    ∃ l : List Nat, l.length = fuel + 1 ∧ (∃ e ∈ level, l.head? = some e.1) ∧
      (∀ id ∈ l, id ∈ (s.store.rows .departments).map Prod.fst) ∧
      l.IsChain fun a b => Forest.Child (parentOf s.store organizationId) b a := by
  have hkey : ∀ {e : Nat × DepartmentRow}, s.store.get .departments e.1 = some e.2 →
      e.1 ∈ (s.store.rows .departments).map Prod.fst :=
    fun he => List.mem_map_of_mem (Store.mem_rows.2 he)
  induction fuel generalizing level with
  | zero =>
    cases level with
    | nil => cases h
    | cons e level =>
      have he := hlevel e List.mem_cons_self
      exact ⟨[e.1], rfl, ⟨e, List.mem_cons_self, rfl⟩, by simpa using hkey he, .singleton _⟩
  | succ fuel ih =>
    cases level with
    | nil => cases h
    | cons e level =>
      have hnext := Option.map_eq_none_iff.1 h
      obtain ⟨l, hlen, ⟨f, hf, hhead⟩, hmem, hchain⟩ := ih hnext fun f hf => (mem_children_iff.1 hf).1
      obtain ⟨_, g, hg, hparent⟩ := mem_children_iff.1 hf
      refine ⟨g.1 :: l, by simp [hlen], ⟨g, hg, rfl⟩, ?_, ?_⟩
      · intro id hid
        rcases List.mem_cons.1 hid with rfl | hid
        · exact hkey (hlevel g hg)
        · exact hmem id hid
      · refine hchain.cons fun y hy => ?_
        rw [hhead] at hy
        cases hy
        exact hparent

/-- **Without a cycle the recursion ends.** -/
theorem levels_ends (h : Forest.Acyclic (parentOf s.store organizationId))
    {level : List (Nat × DepartmentRow)}
    (hlevel : ∀ e ∈ level, s.store.get .departments e.1 = some e.2) (deeper : Bool) :
    ∃ rows, levels s organizationId deeper (s.store.rows .departments).length level = some rows := by
  cases deeper with
  | true =>
    refine Option.ne_none_iff_exists'.1 fun hnone => ?_
    obtain ⟨l, hlen, _, hmem, hchain⟩ := chain_of_levels hnone hlevel
    have hle := h.length_le hchain hmem
    rw [List.length_map] at hle
    omega
  | false =>
    cases level with
    | nil => exact ⟨[], by cases (s.store.rows .departments).length <;> rfl⟩
    | cons e level =>
      have he : e ∈ s.store.rows .departments := Store.mem_rows.2 (hlevel e List.mem_cons_self)
      obtain ⟨n, hn⟩ := Nat.exists_eq_succ_of_ne_zero (List.length_pos_of_mem he).ne'
      rw [hn]
      cases n <;> exact ⟨_, rfl⟩

/-- Without recursion only the first level is returned. -/
theorem levels_flat {fuel : Nat} {level rows : List (Nat × DepartmentRow)}
    (h : levels s organizationId false fuel level = some rows) : rows = level := by
  cases level with
  | nil =>
    cases fuel <;> cases h <;> rfl
  | cons e level =>
    cases fuel with
    | zero => cases h
    | succ fuel =>
      obtain ⟨rest, hrest, rfl⟩ := Option.map_eq_some_iff.1 h
      have hnil : rest = [] := by cases fuel <;> cases hrest <;> rfl
      rw [hnil, List.append_nil]

end Levels

/-! ## What the queries return

Each query is the recursion from its own start, filtered by the scope of the actor.
-/

/-- The scopes that see every root. -/
def isWide (actor : ActorContext) : Bool :=
  actor.dataScope == .all || actor.dataScope == .organization

/-- The departments at which the view of an actor starts. -/
def Top (σ : Store Table) (actor : ActorContext) (id : Nat) : Prop :=
  Belongs σ actor.organizationId id ∧
    if isWide actor then parentOf σ actor.organizationId id = none
    else actor.departmentId = some id

/-- **The department is in the data scope of the actor.** -/
def Visible (σ : Store Table) (actor : ActorContext) (id : Nat) : Prop :=
  ∃ top, Top σ actor top ∧
    if isWide actor || actor.dataScope == .departmentAndChildren then
      Below σ actor.organizationId id top
    else id = top

section Queries

variable {s : Snap} {actor : ActorContext} {id : Nat} {row : DepartmentRow}

theorem Visible.belongs {σ : Store Table} (h : Visible σ actor id) :
    Belongs σ actor.organizationId id := by
  obtain ⟨top, htop, h⟩ := h
  split at h
  · exact htop.1.of_below h
  · subst h
    exact htop.1

/-- Where the recursion of `visible` starts. -/
def roots (s : Snap) (actor : ActorContext) : List (Nat × DepartmentRow) :=
  (s.store.rows .departments).filter fun e =>
    e.2.organizationId == actor.organizationId &&
      ((isWide actor && e.2.parentId.isNone) || (!isWide actor && some e.1 == actor.departmentId))

theorem visible_eq : visible s actor = levels s actor.organizationId
    (isWide actor || actor.dataScope == .departmentAndChildren)
    (s.store.rows .departments).length (roots s actor) := rfl

theorem mem_roots {e : Nat × DepartmentRow} :
    e ∈ roots s actor ↔ s.store.get .departments e.1 = some e.2 ∧ Top s.store actor e.1 := by
  have hrows : e ∈ s.store.rows .departments ↔ s.store.get .departments e.1 = some e.2 :=
    Store.mem_rows
  unfold roots
  rw [List.mem_filter, hrows]
  refine and_congr_right fun hrow => ?_
  have hbelongs : Belongs s.store actor.organizationId e.1 ↔
      e.2.organizationId = actor.organizationId := by
    constructor
    · rintro ⟨row, hrow', horg⟩
      rw [hrow] at hrow'
      cases hrow'
      exact horg
    · exact fun horg => ⟨e.2, hrow, horg⟩
  unfold Top
  rw [Bool.and_eq_true, beq_iff_eq, hbelongs]
  refine and_congr_right fun horg => ?_
  cases hwide : isWide actor
  · simpa using eq_comm
  · simp [parentOf_eq hrow horg]

/-- **What an actor sees.** -/
theorem mem_visible {rows : List (Nat × DepartmentRow)} (h : visible s actor = some rows) :
    (id, row) ∈ rows ↔ s.store.get .departments id = some row ∧ Visible s.store actor id := by
  rw [visible_eq] at h
  have hroots : ∀ e ∈ roots s actor, s.store.get .departments e.1 = some e.2 :=
    fun e he => (mem_roots.1 he).1
  unfold Visible
  cases hdeeper : isWide actor || actor.dataScope == .departmentAndChildren with
  | true =>
    rw [hdeeper] at h
    rw [mem_levels h hroots]
    refine and_congr_right fun _ => ?_
    constructor
    · rintro ⟨e, he, hbelow⟩
      exact ⟨e.1, (mem_roots.1 he).2, by simpa using hbelow⟩
    · rintro ⟨top, htop, hbelow⟩
      obtain ⟨trow, htrow, _⟩ := htop.1
      exact ⟨(top, trow), mem_roots.2 ⟨htrow, htop⟩, by simpa using hbelow⟩
  | false =>
    rw [hdeeper] at h
    rw [levels_flat h, mem_roots]
    refine and_congr_right fun _ => ?_
    simp

/-- **The department and what stands below it.** -/
theorem mem_descendants {organizationId departmentId : Nat} {rows : List (Nat × DepartmentRow)}
    (h : descendants s organizationId departmentId = some rows) :
    (id, row) ∈ rows ↔ s.store.get .departments id = some row ∧
      Belongs s.store organizationId departmentId ∧
        Below s.store organizationId id departmentId := by
  have hroot : ∀ e : Nat × DepartmentRow, e ∈ (s.store.rows .departments).filter (fun e =>
      e.1 == departmentId && e.2.organizationId == organizationId) ↔
        s.store.get .departments e.1 = some e.2 ∧ e.1 = departmentId ∧
          e.2.organizationId = organizationId := by
    intro e
    have hrows : e ∈ s.store.rows .departments ↔ s.store.get .departments e.1 = some e.2 :=
      Store.mem_rows
    rw [List.mem_filter, hrows, Bool.and_eq_true, beq_iff_eq, beq_iff_eq]
  rw [mem_levels h fun e he => ((hroot e).1 he).1]
  refine and_congr_right fun _ => ?_
  constructor
  · rintro ⟨e, he, hbelow⟩
    obtain ⟨hrow, rfl, horg⟩ := (hroot e).1 he
    exact ⟨⟨e.2, hrow, horg⟩, hbelow⟩
  · rintro ⟨⟨drow, hdrow, horg⟩, hbelow⟩
    exact ⟨(departmentId, drow), (hroot _).2 ⟨hdrow, rfl, horg⟩, hbelow⟩

theorem visible_ends (h : Forest.Acyclic (parentOf s.store actor.organizationId)) :
    ∃ rows, visible s actor = some rows :=
  levels_ends h (fun _ he => (mem_roots.1 he).1) _

theorem descendants_ends {organizationId : Nat}
    (h : Forest.Acyclic (parentOf s.store organizationId)) (departmentId : Nat) :
    ∃ rows, descendants s organizationId departmentId = some rows :=
  levels_ends h (fun _ he => Store.mem_rows.1 (List.mem_of_mem_filter he)) _

end Queries

/-! ## Reading alone

The two reads that an update rests on.
-/

section Reads

variable {n : Nat} {c c' : Conn Table} {actor : ActorContext} {id : Nat}

/-- The row that `find` picks. -/
theorem find?_visible {s : Snap} {rows : List (Nat × DepartmentRow)}
    (h : visible s actor = some rows) {e : Nat × DepartmentRow} :
    rows.find? (fun e => e.1 == id) = some e ↔
      e.1 = id ∧ s.store.get .departments id = some e.2 ∧ Visible s.store actor id := by
  constructor
  · intro hfind
    have hid : e.1 = id := by simpa using List.find?_some hfind
    subst hid
    exact ⟨rfl, (mem_visible h).1 (List.mem_of_find?_eq_some hfind)⟩
  · rintro ⟨rfl, hrow, hvisible⟩
    have hmem : e ∈ rows := (mem_visible h).2 ⟨hrow, hvisible⟩
    have hsome : (rows.find? fun f => f.1 == e.1).isSome :=
      List.find?_isSome.2 ⟨e, hmem, beq_self_eq_true _⟩
    obtain ⟨f, hf⟩ := Option.isSome_iff_exists.1 hsome
    have hid : f.1 = e.1 := by simpa using List.find?_some hf
    have hrow' := ((mem_visible h).1 (List.mem_of_find?_eq_some hf)).1
    rw [hid, hrow] at hrow'
    rw [hf]
    exact congrArg some (Prod.ext hid (Option.some.inj hrow').symm)

theorem ends_findById {o : Option Found} : Ends n (findById actor id) c o c' ↔
    c' = c ∧ ∃ rows, visible (committed c.server) actor = some rows ∧
      o = (rows.find? fun e => e.1 == id).map fun e =>
        { id := e.1, row := e.2, memberCount := memberCount (committed c.server) e.1
          childCount := childCount (committed c.server) e.1 } := by
  constructor
  · intro h
    obtain ⟨s, c₁, hs, hrest⟩ := ends_bind.1 h
    obtain ⟨rfl, rfl⟩ := ends_poolQuery.1 hs
    obtain ⟨rows, c₂, hrows, hret⟩ := ends_bind.1 hrest
    obtain ⟨hvisible, rfl⟩ := ends_okOr.1 hrows
    obtain ⟨rfl, rfl⟩ := ends_ret.1 hret
    exact ⟨rfl, rows, hvisible, rfl⟩
  · rintro ⟨rfl, rows, hvisible, rfl⟩
    exact ends_bind.2 ⟨_, _, ends_poolQuery.2 ⟨rfl, rfl⟩, ends_bind.2 ⟨_, _,
      ends_okOr.2 ⟨hvisible, rfl⟩, ends_ret.2 ⟨rfl, rfl⟩⟩⟩

/-- **What `find` finds.** -/
theorem found_of_ends {found : Found} (h : Ends n (findById actor id) c (some found) c') :
    c' = c ∧ found.id = id ∧ c.server.store.get .departments id = some found.row ∧
      Visible c.server.store actor id ∧
      found.memberCount = memberCount (committed c.server) id ∧
      found.childCount = childCount (committed c.server) id := by
  obtain ⟨rfl, rows, hvisible, hfound⟩ := ends_findById.1 h
  obtain ⟨e, he, rfl⟩ := Option.map_eq_some_iff.1 hfound.symm
  obtain ⟨rfl, hrow, hsees⟩ := (find?_visible hvisible).1 he
  exact ⟨rfl, rfl, hrow, hsees, rfl, rfl⟩

/-- **The cycle test, run alone**: it fails only if the recursion does not end. -/
theorem ends_parentWouldCreateCycle {organizationId parentId : Nat} {b : Bool} :
    Ends n (parentWouldCreateCycle organizationId id parentId) c b c' ↔
      c' = c ∧ ∃ rows, descendants (committed c.server) organizationId id = some rows ∧
        b = rows.any fun e => e.1 == parentId := by
  constructor
  · intro h
    obtain ⟨s, c₁, hs, hrest⟩ := ends_bind.1 h
    obtain ⟨rfl, rfl⟩ := ends_poolQuery.1 hs
    obtain ⟨rows, c₂, hrows, hret⟩ := ends_bind.1 hrest
    obtain ⟨hdesc, rfl⟩ := ends_okOr.1 hrows
    obtain ⟨rfl, rfl⟩ := ends_ret.1 hret
    exact ⟨rfl, rows, hdesc, rfl⟩
  · rintro ⟨rfl, rows, hdesc, rfl⟩
    exact ends_bind.2 ⟨_, _, ends_poolQuery.2 ⟨rfl, rfl⟩, ends_bind.2 ⟨_, _,
      ends_okOr.2 ⟨hdesc, rfl⟩, ends_ret.2 ⟨rfl, rfl⟩⟩⟩

/-- The result of the cycle test. -/
theorem any_descendants {s : Snap} {organizationId parentId : Nat}
    {rows : List (Nat × DepartmentRow)} (h : descendants s organizationId id = some rows)
    (hid : Belongs s.store organizationId id) :
    (rows.any fun e => e.1 == parentId) = true ↔ Below s.store organizationId parentId id := by
  rw [List.any_eq_true]
  constructor
  · rintro ⟨⟨i, row⟩, hmem, hi⟩
    have hi' : i = parentId := by simpa using hi
    subst hi'
    exact ((mem_descendants h).1 hmem).2.2
  · intro hbelow
    obtain ⟨row, hrow, _⟩ := hid.of_below hbelow
    exact ⟨(parentId, row), (mem_descendants h).2 ⟨hrow, hid, hbelow⟩, by simp⟩

end Reads

/-! ## What an update does

Its effect, as a relation between the tables before and after. All that follows about forests uses
this relation only.
-/

/-- **The effect of an update of the department `id`**, with the checks that came before it. The
row of the department is the only one that changes, it stays in its organization, and the
parent that it gets was visible, is of the same organization, and did not stand below it. -/
structure Updated (σ σ' : Store Table) (actor : ActorContext) (id : Nat)
    (parentId : Option Nat) : Prop where
  visible : Visible σ actor id
  notRoot : parentOf σ actor.organizationId id ≠ none
  checked : ∀ parent, parentId = some parent → parentOf σ actor.organizationId id ≠ some parent →
    Visible σ actor parent ∧ ¬ Below σ actor.organizationId parent id
  parent : ∀ parent, parentId = some parent → Belongs σ actor.organizationId parent
  row : ∀ i, i ≠ id → σ'.get .departments i = σ.get .departments i
  changed : ∃ old new : DepartmentRow, σ.get .departments id = some old ∧
    σ'.get .departments id = some new ∧ new.organizationId = old.organizationId ∧
    new.parentId = parentId.or old.parentId
  table : ∀ t, t ∉ [Table.departments, .auditLogs] → σ' t = σ t

namespace Updated

variable {σ σ' : Store Table} {actor : ActorContext} {id : Nat} {parentId : Option Nat}

/-- Departments stay in their organization. -/
theorem belongs_iff (h : Updated σ σ' actor id parentId) {organizationId i : Nat} :
    Belongs σ' organizationId i ↔ Belongs σ organizationId i := by
  by_cases hi : i = id
  · subst hi
    obtain ⟨old, new, hold, hnew, horg, _⟩ := h.changed
    unfold Belongs
    rw [hold, hnew]
    simp [horg]
  · unfold Belongs
    rw [h.row i hi]

/-- Only the department itself gets another parent. -/
theorem parentOf_eq_update (h : Updated σ σ' actor id parentId) :
    parentOf σ' actor.organizationId = Function.update (parentOf σ actor.organizationId) id
      (parentId.or (parentOf σ actor.organizationId id)) := by
  funext i
  by_cases hi : i = id
  · subst hi
    obtain ⟨old, new, hold, hnew, horg, hparent⟩ := h.changed
    obtain ⟨row, hrow, horg'⟩ := h.visible.belongs
    rw [hold] at hrow
    cases hrow
    rw [Function.update_self, parentOf_eq hnew (horg.trans horg'), parentOf_eq hold horg', hparent]
  · rw [Function.update_of_ne hi]
    unfold parentOf
    rw [h.row i hi]

theorem parentOf_eq_of_ne (h : Updated σ σ' actor id parentId) {organizationId : Nat}
    (hne : organizationId ≠ actor.organizationId) :
    parentOf σ' organizationId = parentOf σ organizationId := by
  funext i
  by_cases hi : i = id
  · subst hi
    -- the department is of another organization, before and after
    have hnot : ¬ Belongs σ organizationId i := by
      rintro ⟨row, hrow, horg⟩
      obtain ⟨row', hrow', horg'⟩ := h.visible.belongs
      rw [hrow] at hrow'
      cases hrow'
      exact hne (horg.symm.trans horg')
    have hnone : ∀ {τ : Store Table}, ¬ Belongs τ organizationId i →
        parentOf τ organizationId i = none := by
      intro τ hτ
      refine Option.eq_none_iff_forall_not_mem.2 fun parent hparent => hτ ?_
      exact .of_child hparent
    rw [hnone hnot, hnone fun hb => hnot (h.belongs_iff.1 hb)]
  · unfold parentOf
    rw [h.row i hi]

/-- **An update keeps every forest.** -/
theorem forest (h : Updated σ σ' actor id parentId) {organizationId : Nat}
    (hforest : DepartmentForest σ organizationId) : DepartmentForest σ' organizationId := by
  by_cases horg : organizationId = actor.organizationId
  · subst horg
    have hsame : parentId.or (parentOf σ actor.organizationId id) =
        parentOf σ actor.organizationId id →
          parentOf σ' actor.organizationId = parentOf σ actor.organizationId := by
      intro heq
      rw [h.parentOf_eq_update, heq, Function.update_eq_self]
    constructor
    · cases hparent : parentId with
      | none =>
        rw [hsame (by simp [hparent])]
        exact hforest.acyclic
      | some parent =>
        by_cases hstays : parentOf σ actor.organizationId id = some parent
        · rw [hsame (by simp [hparent, hstays])]
          exact hforest.acyclic
        · rw [h.parentOf_eq_update, hparent, Option.some_or]
          exact (Forest.acyclic_move_iff hforest.acyclic).2 (h.checked parent hparent hstays).2
    · intro i parent hi
      rw [h.belongs_iff]
      rw [h.parentOf_eq_update] at hi
      by_cases hid : i = id
      · subst hid
        rw [Function.update_self] at hi
        rcases Option.or_eq_some_iff.1 hi with hnew | ⟨_, hold⟩
        · exact h.parent parent hnew
        · exact hforest.linked i parent hold
      · rw [Function.update_of_ne hid] at hi
        exact hforest.linked i parent hi
  · constructor
    · rw [h.parentOf_eq_of_ne horg]
      exact hforest.acyclic
    · intro i parent hi
      rw [h.parentOf_eq_of_ne horg] at hi
      rw [h.belongs_iff]
      exact hforest.linked i parent hi

end Updated

/-! ## The statements of an update

The program of the update, cut at its commit, has this effect.
-/

section Statements

variable {n : Nat} {c c' : Conn Table}

theorem codeIsUnique_spared {organizationId id : Nat} {code : String}
    (h : Ends n (codeIsUnique organizationId id code) c () c') : Spared (tables []) c c' :=
  h.spared (.bind query_within fun _ => Prog.All.all_reject _ _)

theorem referencesParent_ends {parentId organizationId : Nat} (hopen : c.tx.isSome)
    (h : Ends n (referencesParent parentId organizationId) c () c') :
    Belongs c.view organizationId parentId ∧ Spared (tables []) c c' := by
  obtain ⟨row, hrow, horg⟩ := (ends_references hopen).1 ⟨c', h⟩
  exact ⟨⟨row, hrow, by simpa using horg⟩, references_spared h⟩

/-- **`UPDATE departments`** with its unique index and its foreign key. -/
theorem update_ends {organizationId id : Nat} {department : DepartmentUpdate} {b : Bool}
    (hopen : c.tx.isSome) (h : Ends n (update organizationId id department) c b c') :
    Spared (tables [.departments]) c c' ∧
      (∀ i, c'.view.get .departments i = (c.view.get .departments i).map fun r : DepartmentRow =>
        if i == id && r.organizationId == organizationId then
          (updateStmt organizationId id department).set c.snapshot r else r) ∧
      (b = true → Belongs c.view organizationId id ∧
        ∀ parent, department.parentId = some parent → Belongs c'.view organizationId parent) := by
  obtain ⟨rows, c₁, hexec, hrest⟩ := ends_bind.1 h
  obtain ⟨c₁', hends, hspared, hget⟩ :=
    (updateStmt organizationId id department).ends (ε := ApiError) (p := n) hopen
  obtain ⟨rfl, rfl⟩ := hends.iff.1 hexec
  obtain ⟨u, c₂, hchecks, hret⟩ := ends_bind.1 hrest
  obtain ⟨rfl, rfl⟩ := ends_ret.1 hret
  have hopen₁ : c₁.tx.isSome := hspared.isOpen.trans hopen
  -- the checks on the code and the parent are made where a row was updated
  rcases ends_whenever.1 hchecks with ⟨hsome, hchecks⟩ | ⟨hnone, rfl⟩
  · obtain ⟨_, c₃, hcode, hparent⟩ := ends_bind.1 hchecks
    have hspared₃ : Spared (tables []) c₁ c₃ := by
      rcases ends_ifSome.1 hcode with ⟨code, _, hunique⟩ | ⟨_, rfl⟩
      · exact codeIsUnique_spared hunique
      · exact .refl _
    have hopen₃ : c₃.tx.isSome := hspared₃.isOpen.trans hopen₁
    have hfk : Spared (tables []) c₃ c' ∧ ∀ parent, department.parentId = some parent →
        Belongs c₃.view organizationId parent := by
      rcases ends_ifSome.1 hparent with ⟨parent, hparentId, href⟩ | ⟨hnone, rfl⟩
      · obtain ⟨hbelongs, hsame⟩ := referencesParent_ends hopen₃ href
        refine ⟨hsame, fun p hp => ?_⟩
        rw [hparentId] at hp
        cases hp
        exact hbelongs
      · exact ⟨.refl _, fun p hp => absurd hp (by simp [hnone])⟩
    have hview : c'.view = c₁.view := hfk.1.view_eq.trans hspared₃.view_eq
    have hsame : Spared (tables [.departments]) c₁ c' := by
      have hnothing := hspared₃.trans hfk.1
      exact hnothing.mono fun t _ _ _ _ ht => by cases ht
    refine ⟨hspared.trans hsame, fun i => ?_, fun _ => ⟨?_, fun parent hp => ?_⟩⟩
    · rw [hview]
      exact hget i
    · -- a row was returned: there is one that satisfies the condition
      have hne : (updateStmt organizationId id department).rows c.snapshot ≠ [] := by
        simpa using hsome
      unfold Update.rows at hne
      obtain ⟨e, he⟩ := List.exists_mem_of_ne_nil _ (mt List.map_eq_nil_iff.2 hne)
      obtain ⟨hrow, hcond⟩ := Snapshot.mem_selected.1 he
      have hcond' : e.1 = id ∧ e.2.organizationId = organizationId := by
        simpa [updateStmt] using hcond
      rw [← hcond'.1]
      exact ⟨e.2, hrow, hcond'.2⟩
    · rw [hfk.1.view_eq]
      exact hfk.2 parent hp
  · exact ⟨hspared, hget, fun hb => by simp [hnone] at hb⟩

end Statements

end ArcAdmin.Repositories.Departments

namespace ArcAdmin

open ReadCommitted
open Repositories.Departments
open Prog.All

/-- An audit record changes no other table. -/
theorem Repositories.AuditLogs.record_spared {n : Nat} {c c' : Conn Table}
    {actorUserId : Option Nat} {action targetType : String} {targetId : Option Nat}
    {details : List (String × Detail)}
    (h : Ends n (record actorUserId action targetType targetId details) c () c') :
    Spared (tables [.auditLogs]) c c' :=
  h.spared (record_within (free_tables (List.mem_singleton.2 rfl)) _ _ _ _ _)

namespace Services.Departments

section Update

variable {n : Nat} {s : Server Table} {c c' : Conn Table} {actor : ActorContext} {id : Nat}
  {req : UpdateDepartmentRequest}

theorem validateParent_ends {parentId : Nat} {targetId : Option Nat}
    (h : Ends n (validateParent actor parentId targetId) c () c') :
    c' = c ∧ targetId ≠ some parentId ∧ Visible c.server.store actor parentId := by
  obtain ⟨_, c₁, hself, hrest⟩ := ends_bind.1 h
  obtain ⟨hne, rfl⟩ := ends_reject.1 hself
  obtain ⟨o, c₂, hfind, hrest⟩ := ends_bind.1 hrest
  obtain ⟨parent, c₃, hsome, hactive⟩ := ends_bind.1 hrest
  obtain ⟨rfl, rfl⟩ := ends_okOr.1 hsome
  obtain ⟨_, rfl⟩ := ends_reject.1 hactive
  obtain ⟨rfl, _, _, hvisible, _⟩ := found_of_ends hfind
  exact ⟨rfl, by simpa using hne, hvisible⟩

/-- **The checks on a new parent**: it is visible, and it does not stand below the department. -/
theorem validateMove_ends {current : DepartmentRow} {parentId : Nat}
    (hid : Belongs c.server.store actor.organizationId id)
    (h : Ends n (validateMove actor id current parentId) c () c') :
    c' = c ∧ (current.parentId ≠ some parentId → Visible c.server.store actor parentId ∧
      ¬ Below c.server.store actor.organizationId parentId id) := by
  rcases ends_whenever.1 h with ⟨_, hchecks⟩ | ⟨hsame, rfl⟩
  · obtain ⟨_, c₁, hparent, hrest⟩ := ends_bind.1 hchecks
    obtain ⟨rfl, _, hvisible⟩ := validateParent_ends hparent
    obtain ⟨cycle, c₂, hcycle, hreject⟩ := ends_bind.1 hrest
    obtain ⟨rfl, rows, hrows, hresult⟩ := ends_parentWouldCreateCycle.1 hcycle
    obtain ⟨hfalse, rfl⟩ := ends_reject.1 hreject
    refine ⟨rfl, fun _ => ⟨hvisible, fun hbelow => ?_⟩⟩
    rw [hresult, (any_descendants hrows hid).2 hbelow] at hfalse
    cases hfalse
  · exact ⟨rfl, fun hne => absurd (by simpa using hsame) hne⟩

theorem ensureCodeAvailable_ends {organizationId : Nat} {code : String} {excludeId : Option Nat}
    (h : Ends n (ensureCodeAvailable organizationId code excludeId) c () c') : c' = c := by
  obtain ⟨taken, c₁, hquery, hreject⟩ := ends_bind.1 h
  obtain ⟨s, c₂, hs, hret⟩ := ends_bind.1 hquery
  obtain ⟨_, rfl⟩ := ends_poolQuery.1 hs
  obtain ⟨_, rfl⟩ := ends_ret.1 hret
  exact (ends_reject.1 hreject).2

/-- An update up to its commit. -/
def updating (actor : ActorContext) (id : Nat) (req : UpdateDepartmentRequest) : Db Unit := do
  Prog.reject (req.parentId.isNone && req.code.isNone && req.name.isNone && req.status.isNone)
    (.validation "至少需要提供一个待更新字段")
  let current ← Repositories.Departments.findById actor id
  let current ← Prog.okOr current (.notFound "部门不存在或超出数据范围")
  Prog.reject current.row.parentId.isNone (.forbidden "根部门不可修改")
  Prog.ifSome req.parentId (validateMove actor id current.row)
  let code ← Prog.okOrThrow (req.code.mapM validateCode)
  Prog.ifSome code fun code => ensureCodeAvailable actor.organizationId code (some id)
  let name ← Prog.okOrThrow (req.name.mapM validateName)
  let status ← Prog.okOrThrow (req.status.mapM validateStatus)
  beginTx
  let updated ← Repositories.Departments.update actor.organizationId id
    { parentId := req.parentId, code, name, status }
  Prog.reject (!updated) (.notFound "部门不存在")
  Repositories.AuditLogs.record (some actor.userId) "department.update" "department" (some id)
    [("previousParentId", current.row.parentId.elim .null .number),
      ("parentId", req.parentId.elim .null .number), ("code", code.elim .null .text),
      ("name", name.elim .null .text), ("status", status.elim .null .text)]
  commitTx

/-- After the commit an update only reads. -/
theorem update_eq : update actor id req = updating actor id req >>= fun _ => get actor id := by
  simp only [update, updating, bind_assoc]

/-- **What a successful update has checked, and what it has done.** -/
theorem updated_of_ends (h : Ends n (updating actor id req) ⟨none, s⟩ () c') :
    c'.tx = none ∧ Updated s.store c'.server.store actor id req.parentId := by
  obtain ⟨_, c₁, hsome, hrest₁⟩ := ends_bind.1 h
  obtain ⟨_, rfl⟩ := ends_reject.1 hsome
  obtain ⟨o, c₂, hfind, hrest₂⟩ := ends_bind.1 hrest₁
  obtain ⟨current, c₃, hcurrent, hrest₃⟩ := ends_bind.1 hrest₂
  obtain ⟨rfl, rfl⟩ := ends_okOr.1 hcurrent
  obtain ⟨rfl, _, hrow, hvisible, _⟩ := found_of_ends hfind
  obtain ⟨_, c₄, hroot, hrest₄⟩ := ends_bind.1 hrest₃
  obtain ⟨hroot, rfl⟩ := ends_reject.1 hroot
  obtain ⟨_, c₅, hmove, hrest₅⟩ := ends_bind.1 hrest₄
  have hbelongs := hvisible.belongs
  have hparentOf : parentOf s.store actor.organizationId id = current.row.parentId := by
    obtain ⟨row, hrow', horg⟩ := hbelongs
    rw [hrow] at hrow'
    cases hrow'
    exact parentOf_eq hrow horg
  have hchecked : c₅ = ⟨none, s⟩ ∧ ∀ parent, req.parentId = some parent →
      current.row.parentId ≠ some parent → Visible s.store actor parent ∧
        ¬ Below s.store actor.organizationId parent id := by
    rcases ends_ifSome.1 hmove with ⟨parent, hparent, hmove⟩ | ⟨hnone, rfl⟩
    · obtain ⟨rfl, hcheck⟩ := validateMove_ends hbelongs hmove
      refine ⟨rfl, fun p hp => ?_⟩
      rw [hparent] at hp
      cases hp
      exact hcheck
    · exact ⟨rfl, fun p hp => by simp [hnone] at hp⟩
  obtain ⟨rfl, hchecked⟩ := hchecked
  obtain ⟨code, c₆, hcode, hrest₆⟩ := ends_bind.1 hrest₅
  obtain ⟨_, rfl⟩ := ends_okOrThrow.1 hcode
  obtain ⟨_, c₇, hunique, hrest₇⟩ := ends_bind.1 hrest₆
  have hsame : c₇ = ⟨none, s⟩ := by
    rcases ends_ifSome.1 hunique with ⟨_, _, hensure⟩ | ⟨_, rfl⟩
    · exact ensureCodeAvailable_ends hensure
    · rfl
  subst hsame
  obtain ⟨name, c₈, hname, hrest₈⟩ := ends_bind.1 hrest₇
  obtain ⟨_, rfl⟩ := ends_okOrThrow.1 hname
  obtain ⟨status, c₉, hstatus, hrest₉⟩ := ends_bind.1 hrest₈
  obtain ⟨_, rfl⟩ := ends_okOrThrow.1 hstatus
  -- the transaction
  obtain ⟨_, d, hbegin, hrest₁₀⟩ := ends_bind.1 hrest₉
  rw [ends_beginTx.1 hbegin] at hrest₁₀
  obtain ⟨updated, d₁, hupdate, hrest₁₁⟩ := ends_bind.1 hrest₁₀
  obtain ⟨hspared, hget, hdone⟩ := update_ends rfl hupdate
  obtain ⟨_, d₂, hreject, hrest₁₂⟩ := ends_bind.1 hrest₁₁
  obtain ⟨htrue, rfl⟩ := ends_reject.1 hreject
  obtain ⟨_, hparent⟩ := hdone (by simpa using htrue)
  obtain ⟨_, d₃, hrecord, hcommit⟩ := ends_bind.1 hrest₁₂
  have haudit := Repositories.AuditLogs.record_spared hrecord
  obtain ⟨e, hends, hnone, hstore, _⟩ := commitTx_ends (ε := ApiError) (p := n) (c := d₃)
    (by rw [haudit.isOpen, hspared.isOpen]; rfl)
  obtain ⟨_, rfl⟩ := hends.iff.1 hcommit
  refine ⟨hnone, ?_⟩
  rw [hstore]
  have hdept : ∀ i, d₃.view.get .departments i =
      (s.store.get .departments i).map fun r : DepartmentRow =>
        if i == id && r.organizationId == actor.organizationId then
          (updateStmt actor.organizationId id { parentId := req.parentId, code, name, status }).set
            (⟨none, s⟩ : Conn Table).begun.snapshot r else r := by
    intro i
    rw [haudit.view_get (frozen_tables (by simp)) i, hget i]
    rfl
  constructor
  · exact hvisible
  · rw [hparentOf]
    simpa [Option.isSome_iff_ne_none] using hroot
  · intro parent hp hne
    rw [hparentOf] at hne
    exact hchecked parent hp hne
  · intro parent hp
    obtain ⟨row, hrow', horg⟩ := hparent parent hp
    rw [hget parent] at hrow'
    obtain ⟨old, hold, hrow'⟩ := Option.map_eq_some_iff.1 hrow'
    refine ⟨old, hold, ?_⟩
    rw [← horg, ← hrow']
    split <;> rfl
  · intro i hi
    rw [hdept i]
    have hfalse : (i == id) = false := by simpa using hi
    simp [hfalse]
  · obtain ⟨row, hrow', horg⟩ := hbelongs
    rw [hrow] at hrow'
    cases hrow'
    have hnew := hdept id
    rw [hrow, Option.map_some, if_pos (by simp [horg])] at hnew
    exact ⟨current.row, _, hrow, hnew, rfl, rfl⟩
  · intro t ht
    have hlast := haudit.table t (frozen_tables fun hm => ht (by simp_all))
    rw [hlast]
    exact hspared.table t (frozen_tables fun hm => ht (by simp_all))

theorem updating_atomic : (updating actor id req).Atomic := by
  have hmove : ∀ current parentId, (validateMove actor id current parentId).Uncommitting :=
    fun current parentId => (validateMove_within actor id current parentId).uncommitting
  refine .bind (all_reject _ _) fun _ => .bind (findById_within _ _).uncommitting fun _ => ?_
  refine .bind (all_okOr _ _) fun current => .bind (all_reject _ _) fun _ => ?_
  refine .bind (ifSome (hmove _)) fun _ => .bind (all_okOrThrow _) fun code => ?_
  refine .bind (ifSome fun _ => (ensureCodeAvailable_within _ _ _).uncommitting) fun _ => ?_
  refine .bind (all_okOrThrow _) fun name => .bind (all_okOrThrow _) fun status => ?_
  refine .bind beginTx_uncommitting fun _ => ?_
  refine .bind (Repositories.Departments.update_within free_anything _ _ _).uncommitting fun _ => ?_
  refine .bind (all_reject _ _) fun _ => ?_
  refine .bind (Repositories.AuditLogs.record_within free_anything _ _ _ _ _).uncommitting fun _ => ?_
  exact commitTx_atomic

/-- **An update that runs alone keeps every forest**, whether it succeeds or fails. -/
theorem update_forest {organizationId : Nat} (h : DepartmentForest s.store organizationId) :
    DepartmentForest ((update actor id req).run n ⟨none, s⟩).2.server.store organizationId := by
  rw [update_eq]
  rcases updating_atomic.run_bind
    (fun _ => (get_within actor id).uncommitting) n ⟨none, s⟩ with hsame | ⟨_, c', hends, hstore⟩
  · rw [hsame]
    exact h
  · rw [hstore]
    exact (updated_of_ends hends).2.forest h

end Update

end Services.Departments

/-- **The cycle test is exact**: it ends, it finds exactly the parents that would close a cycle, and
an update that runs alone keeps the forest, with every department connected to its root. -/
theorem cycleTest {s : Server Table} {organizationId : Nat}
    (h : DepartmentForest s.store organizationId) (n : Nat) :
    (∀ d p, Belongs s.store organizationId d → Belongs s.store organizationId p →
      ∃ b, Ends n (parentWouldCreateCycle organizationId d p) ⟨none, s⟩ b ⟨none, s⟩ ∧
        (b = true ↔ Below s.store organizationId p d) ∧
        (b = true ↔ ¬ Forest.Acyclic (Forest.move (parentOf s.store organizationId) d p))) ∧
    ∀ actor id req, let s' := ((Services.Departments.update actor id req).run n ⟨none, s⟩).2.server
      DepartmentForest s'.store organizationId ∧
        ∀ d, Belongs s'.store organizationId d → Connected s'.store organizationId d := by
  constructor
  · intro d p hd _
    obtain ⟨rows, hrows⟩ := descendants_ends (s := committed s) h.acyclic d
    have hresult : (rows.any fun e => e.1 == p) = true ↔ Below s.store organizationId p d :=
      any_descendants hrows hd
    refine ⟨_, ends_parentWouldCreateCycle.2 ⟨rfl, rows, hrows, rfl⟩, hresult, hresult.trans ?_⟩
    exact (not_iff_comm.1 (Forest.acyclic_move_iff h.acyclic).symm).symm
  · intro actor id req
    have hforest : DepartmentForest
        ((Services.Departments.update actor id req).run n ⟨none, s⟩).2.server.store
          organizationId := Services.Departments.update_forest h
    exact ⟨hforest, fun d hd => hforest.connected hd⟩

/-- In the sample chart every department comes after its parent. -/
theorem Sample.office_forest : DepartmentForest Sample.office.store 1 := by
  have hrows : ∀ e ∈ (Sample.office.store.rows .departments : List (Nat × DepartmentRow)),
      ∀ parent, e.2.parentId = some parent → parent < e.1 ∧
        ∃ f ∈ (Sample.office.store.rows .departments : List (Nat × DepartmentRow)),
          f.1 = parent ∧ f.2.organizationId = 1 := by
    decide +kernel
  have hparent : ∀ id parent, parentOf Sample.office.store 1 id = some parent →
      parent < id ∧ Belongs Sample.office.store 1 parent := by
    intro id parent h
    obtain ⟨row, hrow, _, hid⟩ := parentOf_eq_some.1 h
    obtain ⟨hlt, f, hf, rfl, horg⟩ := hrows (id, row) (Store.mem_rows.2 hrow) parent hid
    exact ⟨hlt, f.2, Store.mem_rows.1 hf, horg⟩
  exact ⟨Forest.acyclic_of_lt fun a b h => (hparent a b h).1,
    fun id parent h => (hparent id parent h).2⟩

theorem Sample.office_belongs {id : Nat} (h : id ∈ [1, 2, 3, 4]) :
    Belongs Sample.office.store 1 id := by
  have hall : ∀ i ∈ ([1, 2, 3, 4] : List Nat),
      ∃ e ∈ (Sample.office.store.rows .departments : List (Nat × DepartmentRow)),
        e.1 = i ∧ e.2.organizationId = 1 := by
    decide +kernel
  obtain ⟨e, he, rfl, horg⟩ := hall id h
  exact ⟨e.2, Store.mem_rows.1 he, horg⟩

/-- Sales may not move below its northern branch. -/
theorem cycleTest_office :
    ∃ b, Ends 0 (parentWouldCreateCycle 1 2 3) ⟨none, Sample.office⟩ b ⟨none, Sample.office⟩ ∧
      (b = true ↔ Below Sample.office.store 1 3 2) ∧
      (b = true ↔ ¬ Forest.Acyclic (Forest.move (parentOf Sample.office.store 1) 2 3)) :=
  (cycleTest Sample.office_forest 0).1 2 3 (Sample.office_belongs (by decide))
    (Sample.office_belongs (by decide))

end ArcAdmin
