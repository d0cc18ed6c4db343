import ArcAdmin.Proofs.Hierarchy
import ArcAdmin.Services.Users
import ArcAdmin.Sample

/-!
# The pages of the user list

The list query joins users with their roles and groups the rows again, the count query does not
join. Both see the same users, and the pages put together show each of them once.

* **`mem_grouped`**, **`joined_of_user`** — what is left of the join after grouping;
* **`userPages`** — the pages of the user list;
* **`oneVisibility`** — the list, a single user and the dashboard agree on who is visible, and a
  broader scope shows more.
-/

namespace ArcAdmin

open ReadCommitted Paging
open Repositories.Users
open Services.Users

/-! ## The join

A user with several roles comes several times, and one without roles once. Grouping by the key
leaves each user once.
-/

section Join

variable {sql : Sql} {s : Snap} {actor : ActorContext} {params : UserListParams}

/-- The rows that one user contributes to the join. -/
def rolesOfUser (s : Snap) (u : Nat × UserRow) : List (Option RoleRow) :=
  let assigned := (s.store.rows .userRoles).filter fun e : (Nat × Nat) × LinkRow => e.1.1 == u.1
  if assigned.isEmpty then [none]
  else assigned.map fun e : (Nat × Nat) × LinkRow =>
    (s.store.get .roles e.1.2).filter fun r : RoleRow => r.isActive

theorem joinRoles_eq : joinRoles s =
    (s.store.rows .users).flatMap fun u : Nat × UserRow => (rolesOfUser s u).map fun r => (u, r) := by
  unfold joinRoles
  refine congrArg (List.flatMap · _) (funext fun u => ?_)
  unfold rolesOfUser
  simp only
  split
  · rfl
  · rw [List.map_map]
    rfl

theorem rolesOfUser_ne_nil (u : Nat × UserRow) : rolesOfUser s u ≠ [] := by
  unfold rolesOfUser
  simp only
  split
  · exact List.cons_ne_nil _ _
  · next h => exact fun hnil => h (by simpa using hnil)

/-- The condition of the list query on a user. -/
def isListed (sql : Sql) (s : Snap) (actor : ActorContext) (params : UserListParams)
    (u : Nat × UserRow) : Bool :=
  u.2.deletedAt.isNone && isVisible s actor u.1 u.2 && isMatch sql s params u

/-- The rows of the join that satisfy it. -/
def joined (sql : Sql) (s : Snap) (actor : ActorContext) (params : UserListParams) :
    List ((Nat × UserRow) × Option RoleRow) :=
  (joinRoles s).filter fun (u, _) => isListed sql s actor params u

/-- **Grouping leaves each user once**, whatever roles there are. -/
theorem mem_grouped {u : Nat × UserRow} :
    u ∈ ((joined sql s actor params).map (·.1)).dedup ↔
      s.store.get .users u.1 = some u.2 ∧ isListed sql s actor params u = true := by
  have hrows : u ∈ s.store.rows .users ↔ s.store.get .users u.1 = some u.2 := Store.mem_rows
  rw [List.mem_dedup, List.mem_map, ← hrows]
  unfold joined
  rw [joinRoles_eq]
  constructor
  · rintro ⟨⟨v, r⟩, hmem, rfl⟩
    obtain ⟨hin, hlisted⟩ := List.mem_filter.1 hmem
    obtain ⟨w, hw, hwr⟩ := List.mem_flatMap.1 hin
    obtain ⟨_, _, heq⟩ := List.mem_map.1 hwr
    cases heq
    exact ⟨hw, hlisted⟩
  · rintro ⟨hu, hlisted⟩
    obtain ⟨r, hr⟩ := List.exists_mem_of_ne_nil _ (rolesOfUser_ne_nil (s := s) u)
    exact ⟨(u, r), List.mem_filter.2 ⟨List.mem_flatMap.2 ⟨u, hu, List.mem_map.2 ⟨r, hr, rfl⟩⟩,
      hlisted⟩, rfl⟩

/-- A key stands for one row. -/
theorem filter_key {l : List (Nat × UserRow)} (h : (l.map Prod.fst).Nodup) {u : Nat × UserRow}
    (hu : u ∈ l) : l.filter (fun v => v.1 == u.1) = [u] := by
  induction l with
  | nil => cases hu
  | cons v l ih =>
    obtain ⟨hv, hnodup⟩ := List.nodup_cons.1 h
    rcases List.mem_cons.1 hu with rfl | hin
    · have hrest : l.filter (fun v => v.1 == u.1) = [] := by
        rw [List.filter_eq_nil_iff]
        intro w hw hkey
        rw [← eq_of_beq hkey] at hv
        exact hv (List.mem_map_of_mem hw)
      simp [hrest]
    · have hne : (v.1 == u.1) = false := by
        rw [beq_eq_false_iff_ne]
        intro hkey
        rw [hkey] at hv
        exact hv (List.mem_map_of_mem hin)
      rw [List.filter_cons, hne]
      exact ih hnodup hin

/-- Taking only some of the blocks. -/
theorem flatMap_ite {α β : Type} (l : List α) (q : α → Bool) (f : α → List β) :
    (l.flatMap fun a => if q a = true then f a else []) = (l.filter q).flatMap f := by
  induction l with
  | nil => rfl
  | cons a l ih =>
    rw [List.flatMap_cons, List.filter_cons, ih]
    split
    · rw [List.flatMap_cons]
    · rfl

/-- **The rows of one group** are those that the user contributes. -/
theorem joined_of_user {u : Nat × UserRow} (hu : s.store.get .users u.1 = some u.2)
    (hlisted : isListed sql s actor params u = true) :
    ((joined sql s actor params).filter fun (v, _) => v.1 == u.1).map (·.2) = rolesOfUser s u := by
  let own (v : Nat × UserRow) : Bool := v.1 == u.1 && isListed sql s actor params v
  have hrow : u ∈ (s.store.rows .users : List (Nat × UserRow)) := Store.mem_rows.2 hu
  have hown : (s.store.rows .users : List (Nat × UserRow)).filter own = [u] := by
    have hcomm : own = fun v => isListed sql s actor params v && v.1 == u.1 := by
      funext v
      exact Bool.and_comm _ _
    rw [hcomm, ← List.filter_filter, filter_key (Store.rows_keys_nodup s.store .users) hrow]
    simp [hlisted]
  have hblock : ∀ v : Nat × UserRow, ((rolesOfUser s v).map fun r => (v, r)).filter
      (fun e : (Nat × UserRow) × Option RoleRow => own e.1) =
        if own v = true then (rolesOfUser s v).map fun r => (v, r) else [] := by
    intro v
    split
    · next h =>
      rw [List.filter_eq_self]
      intro e he
      obtain ⟨r, _, rfl⟩ := List.mem_map.1 he
      exact h
    · next h =>
      rw [List.filter_eq_nil_iff]
      intro e he
      obtain ⟨r, _, rfl⟩ := List.mem_map.1 he
      exact h
  have hjoined : (joined sql s actor params).filter (fun (v, _) => v.1 == u.1) =
      (rolesOfUser s u).map fun r => (u, r) := by
    unfold joined
    rw [joinRoles_eq, List.filter_filter]
    show (List.flatMap _ _).filter (fun e : (Nat × UserRow) × Option RoleRow => own e.1) = _
    rw [List.filter_flatMap]
    simp only [hblock]
    rw [flatMap_ite, hown]
    exact List.flatMap_singleton _ _
  rw [hjoined, List.map_map]
  exact List.map_id _

end Join

/-! ## Numbered pages

What one page shows is a slice of the sorted users; the total is their number.
-/

section Pages

variable {sql : Sql} {actor : ActorContext} {query : PageQuery}

/-- A user as the list shows it: with the names of its active roles. -/
def userItem (sql : Sql) (s : Snap) (u : Nat × UserRow) : UserResponse :=
  userResponse u.1 u.2 (aggregateNames sql (rolesOfUser s u))

/-- The users that the list query sorts. -/
def sortedUsers (sql : Sql) (s : Snap) (actor : ActorContext) (params : UserListParams) :
    List (Nat × UserRow) :=
  ((joined sql s actor params).map (·.1)).dedup.insertionSort
    (OrderedBy (fun a b => params.sort.le sql a.2 b.2) Prod.fst)

theorem mem_sortedUsers {s : Snap} {params : UserListParams} {u : Nat × UserRow} :
    u ∈ sortedUsers sql s actor params ↔
      s.store.get .users u.1 = some u.2 ∧ isListed sql s actor params u = true := by
  unfold sortedUsers
  rw [List.mem_insertionSort, mem_grouped]

theorem sortedUsers_nodup {s : Snap} {params : UserListParams} :
    (sortedUsers sql s actor params).Nodup :=
  (List.perm_insertionSort _ _).nodup_iff.2 (List.nodup_dedup _)

/-- The list query shows a slice of them. -/
theorem listIn_eq (s : Snap) (params : UserListParams) :
    (listIn sql s actor params).map userWithRolesResponse =
      (slice (sortedUsers sql s actor params) params.pageSize (params.page - 1)).map
        (userItem sql s) := by
  unfold listIn
  rw [List.map_map]
  refine List.map_congr_left fun u hu => ?_
  have hin : u ∈ sortedUsers sql s actor params :=
    List.mem_of_mem_drop (List.mem_of_mem_take hu)
  obtain ⟨hrow, hlisted⟩ := mem_sortedUsers.1 hin
  show userResponse u.1 u.2 (aggregateNames sql (((joined sql s actor params).filter
    fun (v, _) => v.1 == u.1).map (·.2))) = _
  rw [joined_of_user hrow hlisted]
  rfl

/-- **The count query counts the users of the list query.** -/
theorem count_eq (s : Snap) (params : UserListParams) :
    ((visibleUsers s actor).filter (isMatch sql s params)).length =
      (sortedUsers sql s actor params).length := by
  refine List.Perm.length_eq ((List.perm_ext_iff_of_nodup ?_ sortedUsers_nodup).2 fun u => ?_)
  · exact ((Store.rows_keys_nodup s.store .users).of_map).filter _ |>.filter _
  · have hrows : u ∈ s.store.rows .users ↔ s.store.get .users u.1 = some u.2 := Store.mem_rows
    unfold visibleUsers
    rw [mem_sortedUsers, List.mem_filter, List.mem_filter, hrows, and_assoc]
    unfold isListed
    rw [← Bool.and_eq_true]

/-- How many rows a page has. -/
def PageQuery.rowsPerPage (query : PageQuery) : Nat :=
  (max 1 (min (query.pageSize.getD 20) 100)).toNat

theorem PageQuery.rowsPerPage_pos (query : PageQuery) : 0 < query.rowsPerPage := by
  unfold rowsPerPage
  omega

/-- The parameters of an accepted query, for its first page. -/
def PageQuery.params (query : PageQuery) (sort : UserSort) : UserListParams where
  keyword := normalizedFilter query.keyword
  status := normalizedFilter query.status
  role := normalizedFilter query.role
  sort := sort
  page := 1
  pageSize := query.rowsPerPage

/-- The filters of a query are accepted: the status is one that there is, and no text has U+0000. -/
def PageQuery.Accepted (query : PageQuery) : Prop :=
  ((normalizedFilter query.status).any fun value => !validStatuses.contains value) = false ∧
    ∀ sort, (query.params sort).refused = false

/-- Without filters there is nothing to refuse. -/
theorem PageQuery.accepted_of_unfiltered {query : PageQuery}
    (h : query.keyword = none ∧ query.status = none ∧ query.role = none) : query.Accepted := by
  obtain ⟨hkeyword, hstatus, hrole⟩ := h
  unfold Accepted params
  rw [hkeyword, hstatus, hrole]
  exact ⟨rfl, fun _ => rfl⟩

/-- The number of pages, of which there is at least one. -/
def pageCount (users : List (Nat × UserRow)) (query : PageQuery) : Nat :=
  max ((users.length + query.rowsPerPage - 1) / query.rowsPerPage) 1

/-- What the service answers. Page `n` is clamped to the pages that there are; the slice is taken
from the sorted users, and the total does not depend on the page. -/
def userPage (sql : Sql) (actor : ActorContext) (query : PageQuery) (sort : UserSort)
    (s : Server Table) (n : Int) : PageUser :=
  let users := sortedUsers sql (committed s) actor (query.params sort)
  let page := min (max n 1).toNat (pageCount users query)
  { items := (slice users query.rowsPerPage (page - 1)).map (userItem sql (committed s))
    total := users.length
    page
    pageSize := query.rowsPerPage
    roleOptions := roleOptionsIn sql (committed s) actor }

/-- **What one request returns.** -/
theorem ends_userList {s : Server Table} {c' : Conn Table} {page : PageUser} :
    Ends 0 (Services.Users.list sql actor query) ⟨none, s⟩ page c' ↔
      query.Accepted ∧
        ∃ sort, userSort query.sortBy query.sortDirection = .ok sort ∧ c' = ⟨none, s⟩ ∧
          page = userPage sql actor query sort s (query.page.getD 1) := by
  unfold Services.Users.list Repositories.Users.list Repositories.Users.count
    Repositories.Users.listRoleOptions
  simp only [ends_bind, ends_okOrThrow, ends_reject, ends_poolQuery, Prog.pure_eq, ends_ret]
  constructor
  · rintro ⟨_, _, ⟨hstatus, rfl⟩, sort, _, ⟨hsort, rfl⟩, total, _,
      ⟨_, _, ⟨rfl, rfl⟩, _, _, ⟨hrefused, rfl⟩, rfl, rfl⟩, options, _, ⟨_, _, ⟨rfl, rfl⟩, rfl, rfl⟩,
      rows, _, ⟨_, _, ⟨rfl, rfl⟩, _, _, ⟨_, rfl⟩, rfl, rfl⟩, rfl, rfl⟩
    refine ⟨⟨hstatus, fun _ => hrefused⟩, sort, hsort, rfl, ?_⟩
    simp only [count_eq, listIn_eq]
    rfl
  · rintro ⟨⟨hstatus, hrefused⟩, sort, hsort, rfl, rfl⟩
    refine ⟨(), _, ⟨hstatus, rfl⟩, sort, _, ⟨hsort, rfl⟩, _, _,
      ⟨_, _, ⟨rfl, rfl⟩, (), _, ⟨hrefused sort, rfl⟩, rfl, rfl⟩, _, _, ⟨_, _, ⟨rfl, rfl⟩, rfl, rfl⟩, _, _,
      ⟨_, _, ⟨rfl, rfl⟩, (), _, ⟨hrefused sort, rfl⟩, rfl, rfl⟩, ?_, rfl⟩
    simp only [count_eq, listIn_eq]
    rfl

/-- The same for every page of an accepted query. -/
theorem ends_userList_at {s : Server Table} {sort : UserSort}
    (haccepted : query.Accepted)
    (hsort : userSort query.sortBy query.sortDirection = .ok sort) {n : Int} {page : PageUser}
    {c' : Conn Table} :
    Ends 0 (Services.Users.list sql actor { query with page := some n }) ⟨none, s⟩ page c' ↔
      c' = ⟨none, s⟩ ∧ page = userPage sql actor query sort s n := by
  rw [ends_userList]
  constructor
  · rintro ⟨_, sort', hsort', rfl, rfl⟩
    rw [show userSort query.sortBy query.sortDirection = .ok sort' from hsort'] at hsort
    cases hsort
    exact ⟨rfl, rfl⟩
  · rintro ⟨rfl, rfl⟩
    exact ⟨haccepted, sort, hsort, rfl, rfl⟩

/-! ### The order

Every order of the query has the key behind it, so it is total without ties.
-/

theorem nullsLast_total {α : Type} {le : α → α → Bool}
    (h : ∀ a b, le a b = true ∨ le b a = true) (a b : Option α) :
    nullsLast le a b = true ∨ nullsLast le b a = true := by
  cases a with
  | none => exact .inr (by cases b <;> rfl)
  | some a =>
    cases b with
    | none => exact .inl rfl
    | some b => exact h a b

theorem nullsLast_trans {α : Type} {le : α → α → Bool}
    (h : ∀ a b c, le a b = true → le b c = true → le a c = true) (a b c : Option α)
    (hab : nullsLast le a b = true) (hbc : nullsLast le b c = true) :
    nullsLast le a c = true := by
  cases c with
  | none => cases a <;> rfl
  | some c =>
    cases b with
    | none => cases hbc
    | some b =>
      cases a with
      | none => cases hab
      | some a => exact h a b c hab hbc

theorem UserSort.le_total (hsql : sql.Lawful) (sort : UserSort) (a b : UserRow) :
    sort.le sql a b = true ∨ sort.le sql b a = true := by
  have htext := hsql.total
  have htime : ∀ m n : Nat, decide (m ≤ n) = true ∨ decide (n ≤ m) = true := by
    intro m n
    simpa using Nat.le_total m n
  cases sort with
  | usernameAsc | displayNameAsc | statusAsc => exact htext _ _
  | usernameDesc | displayNameDesc | statusDesc => exact htext _ _
  | emailAsc => exact nullsLast_total htext _ _
  | emailDesc => exact nullsLast_total (fun x y => htext y x) _ _
  | lastLoginAtAsc => exact nullsLast_total htime _ _
  | lastLoginAtDesc => exact nullsLast_total (fun x y => htime y x) _ _
  | createdAtAsc | createdAtDesc => exact htime _ _

theorem UserSort.le_trans (hsql : sql.Lawful) (sort : UserSort) (a b c : UserRow)
    (hab : sort.le sql a b = true) (hbc : sort.le sql b c = true) : sort.le sql a c = true := by
  have htext := hsql.trans
  have htime : ∀ k m n : Nat, decide (k ≤ m) = true → decide (m ≤ n) = true →
      decide (k ≤ n) = true := by
    intro k m n hkm hmn
    simp only [decide_eq_true_eq] at hkm hmn ⊢
    exact Nat.le_trans hkm hmn
  cases sort with
  | usernameAsc | displayNameAsc | statusAsc => exact htext _ _ _ hab hbc
  | usernameDesc | displayNameDesc | statusDesc => exact htext _ _ _ hbc hab
  | emailAsc => exact nullsLast_trans htext _ _ _ hab hbc
  | emailDesc => exact nullsLast_trans (fun x y z hxy hyz => htext z y x hyz hxy) _ _ _ hab hbc
  | lastLoginAtAsc => exact nullsLast_trans htime _ _ _ hab hbc
  | lastLoginAtDesc => exact nullsLast_trans (fun x y z hxy hyz => htime z y x hyz hxy) _ _ _ hab hbc
  | createdAtAsc => exact htime _ _ _ hab hbc
  | createdAtDesc => exact htime _ _ _ hbc hab

/-! ### The pages together

Slices of one list make up the list.
-/

theorem length_le_pages (users : List (Nat × UserRow)) (query : PageQuery) :
    users.length ≤ pageCount users query * query.rowsPerPage := by
  have hpos := query.rowsPerPage_pos
  have hdiv := Nat.div_add_mod (users.length + query.rowsPerPage - 1) query.rowsPerPage
  have hmod := Nat.mod_lt (users.length + query.rowsPerPage - 1) hpos
  have hle : (users.length + query.rowsPerPage - 1) / query.rowsPerPage * query.rowsPerPage ≤
      pageCount users query * query.rowsPerPage :=
    Nat.mul_le_mul_right _ (Nat.le_max_left _ _)
  rw [Nat.mul_comm] at hdiv
  omega

/-- **The numbered pages show all users.** -/
theorem flatMap_userPage (sort : UserSort) (s : Server Table) :
    let users := sortedUsers sql (committed s) actor (query.params sort)
    (List.range (pageCount users query)).flatMap
        (fun i : Nat => (userPage sql actor query sort s (i + 1)).items) =
      users.map (userItem sql (committed s)) := by
  intro users
  have hpage : ∀ i ∈ List.range (pageCount users query),
      (userPage sql actor query sort s (i + 1)).items =
        (slice users query.rowsPerPage i).map (userItem sql (committed s)) := by
    intro i hi
    have hlt := List.mem_range.1 hi
    have hindex : min (max ((i : Int) + 1) 1).toNat (pageCount users query) - 1 = i := by omega
    show (slice users query.rowsPerPage
      (min (max ((i : Int) + 1) 1).toNat (pageCount users query) - 1)).map _ = _
    rw [hindex]
  rw [List.flatMap_congr hpage, ← List.map_flatMap,
    flatMap_slice (length_le_pages users query)]

/-- **The pages of the user list.** If a query is accepted, then pages 1 to the last put together show
each live user that the actor sees and the filters admit once, in the requested order, in which two
users never tie; every page reports their number, and a page beyond the last is the last. -/
theorem userPages (sql : Sql) (hsql : sql.Lawful) (actor : ActorContext) (query : PageQuery)
    (s : Server Table)
    (haccepted : ∃ page c', Ends 0 (Services.Users.list sql actor query) ⟨none, s⟩ page c') :
    ∃ (sort : UserSort) (users : List (Nat × UserRow)) (pages : Int → PageUser),
      userSort query.sortBy query.sortDirection = .ok sort ∧
      (∀ n page c', Ends 0 (Services.Users.list sql actor { query with page := some n }) ⟨none, s⟩
        page c' ↔ c' = ⟨none, s⟩ ∧ page = pages n) ∧
      (users.Nodup ∧ ∀ (id : Nat) (row : UserRow), (id, row) ∈ users ↔
        s.store.get .users id = some row ∧ row.deletedAt = none ∧
          isVisible (committed s) actor id row = true ∧
          isMatch sql (committed s) (query.params sort) (id, row) = true) ∧
      (users.Pairwise (OrderedBy (fun a b => sort.le sql a.2 b.2) Prod.fst) ∧
        ∀ u ∈ users, ∀ v ∈ users, OrderedBy (fun a b => sort.le sql a.2 b.2) Prod.fst u v →
          OrderedBy (fun a b => sort.le sql a.2 b.2) Prod.fst v u → u = v) ∧
      (List.range (pageCount users query)).flatMap (fun i : Nat => (pages (i + 1)).items) =
        users.map (userItem sql (committed s)) ∧
      ∀ n, (pages n).total = users.length ∧
        ((pageCount users query : Int) ≤ n → pages n = pages (pageCount users query)) := by
  obtain ⟨_, _, hends⟩ := haccepted
  obtain ⟨hfilters, sort, hsort, _, _⟩ := ends_userList.1 hends
  -- the sorted list holds the accounts that are listed
  have hmem : ∀ (id : Nat) (row : UserRow),
      (id, row) ∈ sortedUsers sql (committed s) actor (query.params sort) ↔
        s.store.get .users id = some row ∧ row.deletedAt = none ∧
          isVisible (committed s) actor id row = true ∧
          isMatch sql (committed s) (query.params sort) (id, row) = true := by
    intro id row
    rw [mem_sortedUsers]
    unfold isListed
    rw [Bool.and_eq_true, Bool.and_eq_true, Option.isNone_iff_eq_none, and_assoc]
    rfl
  refine ⟨sort, sortedUsers sql (committed s) actor (query.params sort),
    userPage sql actor query sort s, hsort, fun n page c' => ends_userList_at hfilters hsort,
    ⟨sortedUsers_nodup, hmem⟩, ⟨?_, fun u hu v hv huv hvu => ?_⟩, flatMap_userPage sort s,
    fun n => ⟨rfl, fun hn => ?_⟩⟩
  · exact pairwise_orderedBy (fun a b => UserSort.le_total hsql sort a.2 b.2)
      (fun a b c => UserSort.le_trans hsql sort a.2 b.2 c.2) _
  · -- the key breaks the tie
    have hid : u.1 = v.1 := huv.antisymm hvu
    have hrow := (mem_sortedUsers.1 hu).1
    rw [hid, (mem_sortedUsers.1 hv).1] at hrow
    exact Prod.ext hid (Option.some.inj hrow).symm
  · -- there is at least one page; a later one is answered with the last
    have hpos : 1 ≤ pageCount (sortedUsers sql (committed s) actor (query.params sort)) query :=
      Nat.le_max_right _ _
    unfold userPage
    have hpage : min (max n 1).toNat
          (pageCount (sortedUsers sql (committed s) actor (query.params sort)) query) =
        min (max (pageCount (sortedUsers sql (committed s) actor (query.params sort)) query : Int)
          1).toNat (pageCount (sortedUsers sql (committed s) actor (query.params sort)) query) := by
      omega
    simp only [hpage]

end Pages

theorem userPages_sample : ∃ users : List (Nat × UserRow), users.Nodup := by
  obtain ⟨_, users, _, _, _, ⟨hnodup, _⟩, _⟩ := userPages Sample.sql Sample.sql_lawful
    ⟨10, 1, 1, none, .organization, []⟩ ⟨none, none, none, none, none, none, none⟩ Sample.server
    ⟨_, _, ends_userList.2 ⟨PageQuery.accepted_of_unfiltered ⟨rfl, rfl, rfl⟩, .createdAtDesc, rfl, rfl,
      rfl⟩⟩
  exact ⟨users, hnodup⟩

/-! ## One notion of visibility

Four copies of the condition in the source, and the relation that all of them stand for.
-/

section Visibility

/-- Who is visible under a scope. Every scope but `all` stays within the organization of the
actor. The last three rest on departments, or on the account itself. -/
def InScope (s : Snap) (actor : ActorContext) (id : Nat) (row : UserRow) : DataScope → Prop
  | .all => True
  | .organization => row.organizationId = actor.organizationId
  | .departmentAndChildren => row.organizationId = actor.organizationId ∧
      ∃ top department, actor.departmentId = some top ∧ row.departmentId = some department ∧
        Repositories.Departments.Under s actor.organizationId top department
  | .department => row.organizationId = actor.organizationId ∧
      ∃ department, row.departmentId = some department ∧ actor.departmentId = some department
  | .selfOnly => row.organizationId = actor.organizationId ∧ id = actor.userId

theorem isVisible_iff {s : Snap} {actor : ActorContext} {id : Nat} {row : UserRow} :
    isVisible s actor id row = true ↔ InScope s actor id row actor.dataScope := by
  -- the recursive query on departments is the relation `Under`
  have hunder : (row.departmentId.any (Repositories.Departments.visibleDepartments s
      actor.organizationId actor.departmentId).contains) = true ↔
      ∃ top department, actor.departmentId = some top ∧ row.departmentId = some department ∧
        Repositories.Departments.Under s actor.organizationId top department := by
    cases row.departmentId with
    | none => simp
    | some department =>
      rw [Option.any_some, List.contains_iff_mem,
        Repositories.Departments.mem_visibleDepartments]
      constructor
      · rintro ⟨top, htop, hunder⟩
        exact ⟨top, department, htop, rfl, hunder⟩
      · rintro ⟨top, _, htop, heq, hunder⟩
        cases heq
        exact ⟨top, htop, hunder⟩
  -- two missing departments do not match
  have hdepartment : (row.departmentId.isSome && row.departmentId == actor.departmentId) = true ↔
      ∃ department, row.departmentId = some department ∧ actor.departmentId = some department := by
    cases row.departmentId with
    | none => simp
    | some department =>
      simp only [Option.isSome_some, Bool.true_and, beq_iff_eq]
      constructor
      · intro h
        exact ⟨department, rfl, h.symm⟩
      · rintro ⟨_, heq, hactor⟩
        rw [hactor, heq]
  unfold isVisible
  cases hscope : actor.dataScope with
  | all => simp [InScope]
  | organization => simp [InScope]
  | departmentAndChildren =>
    unfold InScope
    rw [← hunder]
    simp
  | department =>
    unfold InScope
    rw [← hdepartment]
    simp
  | selfOnly => simp [InScope]

/-- The actor is a live user with a department in its organization. -/
structure Placed (s : Server Table) (actor : ActorContext) : Prop where
  user : ∃ row : UserRow, s.store.get .users actor.userId = some row ∧ row.deletedAt = none ∧
    row.organizationId = actor.organizationId ∧ row.departmentId = actor.departmentId
  department : ∃ (id : Nat) (row : DepartmentRow), actor.departmentId = some id ∧
    s.store.get .departments id = some row ∧ row.organizationId = actor.organizationId

/-- **A broader scope shows more.** -/
theorem InScope.mono {s : Server Table} {actor : ActorContext} (hplaced : Placed s actor)
    {id : Nat} {row : UserRow} (hrow : s.store.get .users id = some row) {scope scope' : DataScope}
    (hgrant : scope.canGrant scope' = true) (h : InScope (committed s) actor id row scope') :
    InScope (committed s) actor id row scope := by
  obtain ⟨self, hself, _, _, hselfDepartment⟩ := hplaced.user
  obtain ⟨top, department, htop, hdepartment, horg⟩ := hplaced.department
  have hunder : Repositories.Departments.Under (committed s) actor.organizationId top top :=
    .top hdepartment horg
  -- the actor itself stands in its department
  have hown : id = actor.userId → row.departmentId = some top := by
    rintro rfl
    rw [hself] at hrow
    cases hrow
    rw [hselfDepartment, htop]
  cases scope with
  | all => trivial
  | organization =>
    cases scope' with
    | all => cases hgrant
    | organization => exact h
    | departmentAndChildren | department | selfOnly => exact h.1
  | departmentAndChildren =>
    cases scope' with
    | all | organization => cases hgrant
    | departmentAndChildren => exact h
    | department =>
      obtain ⟨hrowOrg, d, hd, hactor⟩ := h
      rw [htop] at hactor
      cases hactor
      exact ⟨hrowOrg, top, top, htop, hd, hunder⟩
    | selfOnly => exact ⟨h.1, top, top, htop, hown h.2, hunder⟩
  | department =>
    cases scope' with
    | all | organization | departmentAndChildren => cases hgrant
    | department => exact h
    | selfOnly => exact ⟨h.1, top, hown h.2, htop⟩
  | selfOnly =>
    cases scope' with
    | selfOnly => exact h
    | all | organization | departmentAndChildren | department => cases hgrant

theorem ends_findByIdForActor {s : Server Table} {actor : ActorContext} {id : Nat}
    {found : Option Found} {c' : Conn Table} :
    Ends 0 (findByIdForActor actor id) ⟨none, s⟩ found c' ↔ c' = ⟨none, s⟩ ∧
      found = (byId (committed s) id).filter fun f => isVisible (committed s) actor id f.row := by
  unfold findByIdForActor
  simp only [ends_bind, ends_poolQuery, Prog.pure_eq, ends_ret]
  constructor
  · rintro ⟨_, _, ⟨rfl, rfl⟩, rfl, rfl⟩
    exact ⟨rfl, rfl⟩
  · rintro ⟨rfl, rfl⟩
    exact ⟨_, _, ⟨rfl, rfl⟩, rfl, rfl⟩

/-- **A single user is shown** iff it is live and in scope. -/
theorem found_iff {s : Server Table} {actor : ActorContext} {id : Nat} :
    (∃ found c', Ends 0 (findByIdForActor actor id) ⟨none, s⟩ (some found) c') ↔
      ∃ row : UserRow, s.store.get .users id = some row ∧ row.deletedAt = none ∧
        isVisible (committed s) actor id row = true := by
  simp only [ends_findByIdForActor]
  have hget : (committed s).store.get .users id = s.store.get .users id := rfl
  unfold byId
  rw [hget]
  constructor
  · rintro ⟨found, _, _, hfound⟩
    obtain ⟨hmap, hvisible⟩ := Option.filter_eq_some_iff.1 hfound.symm
    obtain ⟨row, hrow, rfl⟩ := Option.map_eq_some_iff.1 hmap
    obtain ⟨hstored, hlive⟩ := Option.filter_eq_some_iff.1 hrow
    exact ⟨row, hstored, Option.isNone_iff_eq_none.1 hlive, hvisible⟩
  · rintro ⟨row, hrow, hlive, hvisible⟩
    refine ⟨⟨id, row, (committed s).asOf⟩, _, rfl, ?_⟩
    rw [hrow, Option.filter_some_pos (by simp [hlive]), Option.map_some]
    exact (Option.filter_some_pos (p := fun f : Found => isVisible (committed s) actor id f.row)
      hvisible).symm

/-- **A user is on some page** iff the list query sorts it. -/
theorem mem_pages {sql : Sql} {actor : ActorContext} {query : PageQuery} {s : Server Table}
    {sort : UserSort}
    (haccepted : query.Accepted)
    (hsort : userSort query.sortBy query.sortDirection = .ok sort) {id : Nat} :
    (∃ (n : Int) (page : PageUser) (c' : Conn Table),
      Ends 0 (Services.Users.list sql actor { query with page := some n }) ⟨none, s⟩ page c' ∧
        id ∈ page.items.map (·.id)) ↔
      id ∈ (sortedUsers sql (committed s) actor (query.params sort)).map Prod.fst := by
  simp only [ends_userList_at haccepted hsort]
  constructor
  · rintro ⟨n, _, _, ⟨rfl, rfl⟩, hid⟩
    obtain ⟨item, hitem, rfl⟩ := List.mem_map.1 hid
    obtain ⟨u, hu, rfl⟩ := List.mem_map.1 hitem
    exact List.mem_map_of_mem (List.mem_of_mem_drop (List.mem_of_mem_take hu))
  · intro hid
    obtain ⟨u, hu, rfl⟩ := List.mem_map.1 hid
    have hitem := List.mem_map_of_mem (f := userItem sql (committed s)) hu
    rw [← flatMap_userPage sort s] at hitem
    obtain ⟨i, _, hi⟩ := List.mem_flatMap.1 hitem
    exact ⟨i + 1, _, _, ⟨rfl, rfl⟩, List.mem_map.2 ⟨_, hi, rfl⟩⟩

/-- Every visible user is on some page of the unfiltered list, and nobody else. -/
theorem mem_userPages {sql : Sql} {actor : ActorContext} {query : PageQuery} {s : Server Table}
    {sort : UserSort} (hsort : userSort query.sortBy query.sortDirection = .ok sort)
    (hunfiltered : query.keyword = none ∧ query.status = none ∧ query.role = none) {id : Nat} :
    (∃ (n : Int) (page : PageUser) (c' : Conn Table),
      Ends 0 (Services.Users.list sql actor { query with page := some n }) ⟨none, s⟩ page c' ∧
        id ∈ page.items.map (·.id)) ↔
      id ∈ (visibleUsers (committed s) actor).map Prod.fst := by
  have haccepted := PageQuery.accepted_of_unfiltered hunfiltered
  obtain ⟨hkeyword, hstatus, hrole⟩ := hunfiltered
  have hall : ∀ u, isMatch sql (committed s) (query.params sort) u = true := by
    intro u
    unfold isMatch PageQuery.params
    rw [hkeyword, hstatus, hrole]
    rfl
  have hmem : ∀ u, u ∈ sortedUsers sql (committed s) actor (query.params sort) ↔
      u ∈ visibleUsers (committed s) actor := by
    intro u
    have hrows : u ∈ (committed s).store.rows .users ↔
        (committed s).store.get .users u.1 = some u.2 := Store.mem_rows
    unfold visibleUsers
    rw [mem_sortedUsers, List.mem_filter, hrows]
    unfold isListed
    rw [hall, Bool.and_true]
  rw [mem_pages haccepted hsort, List.mem_map, List.mem_map]
  simp only [hmem]

theorem mem_visibleUsers {s : Server Table} {actor : ActorContext} {id : Nat} :
    id ∈ (visibleUsers (committed s) actor).map Prod.fst ↔
      ∃ row : UserRow, s.store.get .users id = some row ∧ row.deletedAt = none ∧
        isVisible (committed s) actor id row = true := by
  have hrows : ∀ row : UserRow, (id, row) ∈ (committed s).store.rows .users ↔
      s.store.get .users id = some row := fun row => Store.mem_rows
  unfold visibleUsers
  constructor
  · rintro h
    obtain ⟨⟨_, row⟩, hmem, rfl⟩ := List.mem_map.1 h
    obtain ⟨hin, hcond⟩ := List.mem_filter.1 hmem
    obtain ⟨hlive, hvisible⟩ := Bool.and_eq_true_iff.1 hcond
    exact ⟨row, (hrows row).1 hin, Option.isNone_iff_eq_none.1 hlive, hvisible⟩
  · rintro ⟨row, hrow, hlive, hvisible⟩
    refine List.mem_map.2 ⟨(id, row), List.mem_filter.2 ⟨(hrows row).2 hrow, ?_⟩, rfl⟩
    rw [Bool.and_eq_true]
    exact ⟨by simp [hlive], hvisible⟩

/-- **One notion of visibility.** For every actor that is a live user with a department: a user is
on some page of the unfiltered list iff it can be opened by its id, the dashboard counts exactly
these users, and whoever may hand out a scope sees at least as much under its own. -/
theorem oneVisibility (sql : Sql) (s : Server Table) (actor : ActorContext)
    (hplaced : Placed s actor) (query : PageQuery)
    (hunfiltered : query.keyword = none ∧ query.status = none ∧ query.role = none)
    (hsort : ∃ sort, userSort query.sortBy query.sortDirection = .ok sort) :
    (∃ ids : List Nat, ids.Nodup ∧
      (∀ id, id ∈ ids ↔ ∃ (n : Int) (page : PageUser) (c' : Conn Table),
        Ends 0 (Services.Users.list sql actor { query with page := some n }) ⟨none, s⟩ page c' ∧
          id ∈ page.items.map (·.id)) ∧
      (∀ id, id ∈ ids ↔
        ∃ found c', Ends 0 (findByIdForActor actor id) ⟨none, s⟩ (some found) c') ∧
      ∃ stats c', Ends 0 (Repositories.Permissions.stats actor) ⟨none, s⟩ stats c' ∧
        stats.totalUsers = ids.length) ∧
    ∀ scope scope' : DataScope, scope.canGrant scope' = true → ∀ id,
      (∃ found c', Ends 0 (findByIdForActor { actor with dataScope := scope' } id) ⟨none, s⟩
        (some found) c') →
      ∃ found c', Ends 0 (findByIdForActor { actor with dataScope := scope } id) ⟨none, s⟩
        (some found) c' := by
  obtain ⟨sort, hsort⟩ := hsort
  refine ⟨⟨(visibleUsers (committed s) actor).map Prod.fst, ?_, fun id => ?_, fun id => ?_, ?_⟩, ?_⟩
  · exact ((List.filter_sublist (l := s.store.rows .users)).map Prod.fst).nodup
      (Store.rows_keys_nodup s.store .users)
  · exact (mem_userPages hsort hunfiltered).symm
  · rw [found_iff, mem_visibleUsers]
  · exact ⟨_, _, rfl, by rw [List.length_map]; rfl⟩
  · intro scope scope' hgrant id hfound
    obtain ⟨row, hrow, hlive, hvisible⟩ := found_iff.1 hfound
    have hscope : InScope (committed s) actor id row scope' := isVisible_iff.1 hvisible
    exact found_iff.2 ⟨row, hrow, hlive, isVisible_iff.2 (InScope.mono hplaced hrow hgrant hscope)⟩

end Visibility

/-- The department of the sample installation's only member. -/
def rootDepartment : DepartmentRow := {
  organizationId := 1, parentId := none, code := "root", name := "Root", status := "active"
  createdAt := 0, updatedAt := 0 }

/-- The only member of `rootDepartment`. -/
def member : UserRow := {
  username := "member", passwordHash := "", displayName := "member", email := none
  status := "active", organizationId := 1, departmentId := some 1, tokenVersion := 0
  lastLoginAt := none, createdAt := 0, updatedAt := 0, deletedAt := none }

/-- The sample installation with a department and its only member. -/
def staffed : Server Table :=
  { Sample.server with
    store := (Sample.server.store.set .departments (1 : Nat) (some rootDepartment)).set .users
      (14 : Nat) (some member) }

theorem oneVisibility_staffed :
    ∃ ids : List Nat, ∀ id, id ∈ ids ↔ ∃ found c', Ends 0
      (findByIdForActor ⟨14, 1, 1, some 1, .department, []⟩ id) ⟨none, staffed⟩ (some found) c' := by
  have huser : staffed.store.get .users (14 : Nat) = some member :=
    Store.get_set_self (Sample.server.store.set .departments (1 : Nat) (some rootDepartment))
      .users (14 : Nat) (some member)
  have hdepartment : staffed.store.get .departments (1 : Nat) = some rootDepartment := by
    show ((Sample.server.store.set .departments (1 : Nat) (some rootDepartment)).set .users
      (14 : Nat) (some member)).get .departments (1 : Nat) = some rootDepartment
    rw [Store.get_set_of_table_ne _ _ _ _ (by decide)]
    exact Store.get_set_self Sample.server.store .departments (1 : Nat) (some rootDepartment)
  have hplaced : Placed staffed ⟨14, 1, 1, some 1, .department, []⟩ :=
    ⟨⟨member, huser, rfl, rfl, rfl⟩, 1, rootDepartment, rfl, hdepartment, rfl⟩
  obtain ⟨⟨ids, _, _, hids, _⟩, _⟩ := oneVisibility Sample.sql staffed
    ⟨14, 1, 1, some 1, .department, []⟩ hplaced ⟨none, none, none, none, none, none, none⟩
    ⟨rfl, rfl, rfl⟩ ⟨.createdAtDesc, rfl⟩
  exact ⟨ids, hids⟩

end ArcAdmin
