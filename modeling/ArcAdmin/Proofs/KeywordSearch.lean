import ArcAdmin.Like
import ArcAdmin.Proofs.UserPages

/-!
# Keyword search

The keyword of the user list is trimmed, dropped if it is empty or `all`, and put between two `%`
into a pattern of `ILIKE`. The search is for the text itself only where none of this changes what
the keyword says, and where the database accepts the keyword at all.

* **`Sql.Likes`** — what `ILIKE` means;
* **`finds_of_match`**, **`match_of_finds`** — the list finds the rows that its filter admits;
* **`keywordSearch`** — for which keywords the search is literal.
-/

namespace ArcAdmin

open ReadCommitted
open Repositories.Users
open Services.Users

/-- PostgreSQL's `ILIKE`: both sides are folded, then the text is matched with the pattern. -/
def Sql.Likes (sql : Sql) (fold : Char → Char) : Prop :=
  ∀ text pattern ps, Like.pieces (pattern.toList.map fold) = some ps →
    sql.ilike text pattern = Like.isMatch ps (text.toList.map fold)

/-- The keyword occurs in the text, in whatever case. -/
def Occurs (fold : Char → Char) (keyword text : String) : Prop :=
  keyword.toList.map fold <:+: text.toList.map fold

/-- The keyword occurs in the username, the display name or the e-mail address. -/
def Named (fold : Char → Char) (keyword : String) (row : UserRow) : Prop :=
  Occurs fold keyword row.username ∨ Occurs fold keyword row.displayName ∨
    ∃ email, row.email = some email ∧ Occurs fold keyword email

/-- The pages of a query list, and its total counts, the visible users with a property: the query is
answered, and so is that for every other page. -/
def ListFinds (sql : Sql) (s : Server Table) (actor : ActorContext) (query : PageQuery)
    (P : UserRow → Prop) : Prop :=
  ∃ ids : List Nat, ids.Nodup ∧
    (∀ id, id ∈ ids ↔ ∃ row : UserRow, s.store.get .users id = some row ∧ row.deletedAt = none ∧
      isVisible (committed s) actor id row = true ∧ P row) ∧
    (∀ id, id ∈ ids ↔ ∃ (n : Int) (page : PageUser) (c' : Conn Table),
      Ends 0 (Services.Users.list sql actor { query with page := some n }) ⟨none, s⟩ page c' ∧
        id ∈ page.items.map (·.id)) ∧
    ∃ page c', Ends 0 (Services.Users.list sql actor query) ⟨none, s⟩ page c' ∧
      page.total = ids.length

/-- The search for a keyword, with any order and page size and no other filter, finds the users in
whose names it occurs: in every database, for every actor. -/
def SearchIsLiteral (sql : Sql) (fold : Char → Char) (keyword : String) : Prop :=
  ∀ (s : Server Table) (actor : ActorContext) (query : PageQuery) (sort : UserSort),
    query.keyword = some keyword → query.status = none → query.role = none →
      userSort query.sortBy query.sortDirection = .ok sort →
        ListFinds sql s actor query (Named fold (trim keyword))

/-- The database accepts the keyword, and nothing in it means anything else than itself. -/
structure PlainKeyword (keyword : String) : Prop where
  filters : keyword ≠ "all"
  accepted : refusesText keyword = false
  literal : ∀ c ∈ keyword.toList, ¬ Like.Special c

theorem plainKeyword_iff (keyword : String) : PlainKeyword keyword ↔ keyword ≠ "all" ∧
    refusesText keyword = false ∧ (keyword.toList.all fun c => decide (¬ Like.Special c)) = true := by
  rw [List.all_eq_true]
  simp only [decide_eq_true_eq]
  exact ⟨fun h => ⟨h.filters, h.accepted, h.literal⟩, fun ⟨h₁, h₂, h₃⟩ => ⟨h₁, h₂, h₃⟩⟩

instance (keyword : String) : Decidable (PlainKeyword keyword) :=
  decidable_of_iff' _ (plainKeyword_iff keyword)

/-! ## What the list finds

From the pages of the list to the filter of its query: a row is on some page exactly if the filter
admits it.
-/

section Finds

variable {sql : Sql} {s : Server Table} {actor : ActorContext} {query : PageQuery} {sort : UserSort}
  {P : UserRow → Prop}

theorem mem_sortedUsers_iff {id : Nat} {row : UserRow} :
    (id, row) ∈ sortedUsers sql (committed s) actor (query.params sort) ↔
      s.store.get .users id = some row ∧ row.deletedAt = none ∧
        isVisible (committed s) actor id row = true ∧
        isMatch sql (committed s) (query.params sort) (id, row) = true := by
  rw [mem_sortedUsers]
  unfold isListed
  rw [Bool.and_eq_true, Bool.and_eq_true, Option.isNone_iff_eq_none, and_assoc]
  rfl

/-- **The list finds the rows that its filter admits.** -/
theorem finds_of_match (haccepted : query.Accepted)
    (hsort : userSort query.sortBy query.sortDirection = .ok sort)
    (hmatch : ∀ id row, isMatch sql (committed s) (query.params sort) (id, row) = true ↔ P row) :
    ListFinds sql s actor query P := by
  have hnodup : ((sortedUsers sql (committed s) actor (query.params sort)).map Prod.fst).Nodup := by
    refine List.Nodup.map_on (fun u hu v hv hid => ?_) sortedUsers_nodup
    have hrow := (mem_sortedUsers.1 hu).1
    rw [hid, (mem_sortedUsers.1 hv).1] at hrow
    exact Prod.ext hid (Option.some.inj hrow).symm
  refine ⟨_, hnodup, fun id => ?_, fun id => (mem_pages haccepted hsort).symm, ?_⟩
  · rw [List.mem_map]
    constructor
    · rintro ⟨⟨_, row⟩, hmem, rfl⟩
      obtain ⟨hrow, hlive, hvisible, hrowMatch⟩ := mem_sortedUsers_iff.1 hmem
      exact ⟨row, hrow, hlive, hvisible, (hmatch _ row).1 hrowMatch⟩
    · rintro ⟨row, hrow, hlive, hvisible, hP⟩
      exact ⟨(id, row), mem_sortedUsers_iff.2 ⟨hrow, hlive, hvisible, (hmatch id row).2 hP⟩, rfl⟩
  · refine ⟨_, _, ends_userList.2 ⟨haccepted, sort, hsort, rfl, rfl⟩, ?_⟩
    rw [List.length_map]
    rfl

/-- **A row that the filter admits** is one of those that the list finds. -/
theorem match_of_finds (hsort : userSort query.sortBy query.sortDirection = .ok sort)
    (h : ListFinds sql s actor query P) {id : Nat} {row : UserRow} (hrow : s.store.get .users id = some row)
    (hlive : row.deletedAt = none) (hvisible : isVisible (committed s) actor id row = true)
    (hmatch : isMatch sql (committed s) (query.params sort) (id, row) = true) : P row := by
  obtain ⟨ids, -, hids, hlisted, page, c', hends, -⟩ := h
  have hmem : id ∈ ids := by
    rw [hlisted, mem_pages (ends_userList.1 hends).1 hsort]
    exact List.mem_map_of_mem (f := Prod.fst)
      (mem_sortedUsers_iff.2 ⟨hrow, hlive, hvisible, hmatch⟩)
  obtain ⟨row', hrow', -, -, hP⟩ := (hids id).1 hmem
  rw [hrow] at hrow'
  cases hrow'
  exact hP

end Finds

/-! ## What `ILIKE` finds

From the filter to the texts: the pattern between two wildcards, column by column.
-/

section Ilike

variable {sql : Sql} {fold : Char → Char} {keyword text : String}

theorem toList_like (keyword : String) :
    ("%" ++ keyword ++ "%").toList = '%' :: (keyword.toList ++ ['%']) := by
  simp [String.toList_append]

theorem fold_like (hfold : Like.Folds fold) (keyword : String) :
    ("%" ++ keyword ++ "%").toList.map fold = '%' :: (keyword.toList.map fold ++ ['%']) := by
  have hpercent : fold '%' = '%' := (hfold '%' (.inl rfl) '%').2 rfl
  rw [toList_like]
  simp [hpercent]

/-- **A keyword without special characters** is found where it occurs. -/
theorem ilike_plain (hlikes : sql.Likes fold) (hfold : Like.Folds fold)
    (hplain : ∀ c ∈ keyword.toList, ¬ Like.Special c) :
    sql.ilike text ("%" ++ keyword ++ "%") = true ↔ Occurs fold keyword text := by
  have hspecial : ∀ c ∈ keyword.toList.map fold, ¬ Like.Special c := by
    intro c hc
    obtain ⟨d, hd, rfl⟩ := List.mem_map.1 hc
    rw [hfold.special_iff]
    exact hplain d hd
  have hpieces : Like.pieces (("%" ++ keyword ++ "%").toList.map fold) =
      some (.any :: ((keyword.toList.map fold).map Like.Piece.lit ++ [.any])) := by
    rw [fold_like hfold, Like.pieces_cons (by decide), Like.pieces_append hspecial]
    rfl
  rw [hlikes text _ _ hpieces, Like.matches_infix_iff]
  rfl

/-- **A keyword with a special character** finds a text that it does not occur in. -/
theorem ilike_special (hlikes : sql.Likes fold) (hfold : Like.Folds fold)
    (hspecial : ∃ c ∈ keyword.toList, Like.Special c) :
    sql.ilike (String.ofList (Like.sample keyword.toList)) ("%" ++ keyword ++ "%") = true ∧
      ¬ Occurs fold keyword (String.ofList (Like.sample keyword.toList)) := by
  obtain ⟨ps, hps, hmatch⟩ := Like.matches_sample hfold keyword.toList
  have hpieces : Like.pieces (("%" ++ keyword ++ "%").toList.map fold) = some (.any :: ps) := by
    rw [fold_like hfold, Like.pieces_cons (by decide), hps]
    rfl
  constructor
  · rw [hlikes _ _ _ hpieces, String.toList_ofList]
    show List.any _ _ = true
    rw [List.any_eq_true]
    exact ⟨_, (List.mem_tails _ _).2 (List.suffix_refl _), hmatch⟩
  · unfold Occurs
    rw [String.toList_ofList]
    exact Like.sample_not_infix hfold hspecial

end Ilike

/-! ## Literal search

One direction is about all databases. For the other one a database with a single account is
enough, whose name is a text that the pattern finds.
-/

/-- A database with a single account. -/
def single (row : UserRow) : Server Table :=
  { Sample.server with store := Store.empty.set .users (1 : Nat) (some row) }

/-- An account with the username `-`. -/
def named (displayName : String) : UserRow := { member with username := "-", displayName }

/-- An actor who sees every account. -/
def everyone : ActorContext := ⟨1, 1, 1, none, .all, []⟩

section Keyword

variable {sql : Sql} {fold : Char → Char} {keyword : String}

theorem params_keyword {query : PageQuery} {sort : UserSort} {s : Snap} {id : Nat} {row : UserRow}
    (hkeyword : normalizedFilter query.keyword = some keyword) (hstatus : query.status = none)
    (hrole : query.role = none) :
    isMatch sql s (query.params sort) (id, row) = true ↔
      sql.ilike row.username ("%" ++ keyword ++ "%") = true ∨
        sql.ilike row.displayName ("%" ++ keyword ++ "%") = true ∨
        ∃ email, row.email = some email ∧ sql.ilike email ("%" ++ keyword ++ "%") = true := by
  unfold isMatch PageQuery.params
  simp only [hkeyword, hstatus, hrole]
  show ((sql.ilike row.username _ || sql.ilike row.displayName _ || row.email.any _) && true &&
    true) = true ↔ _
  rw [Bool.and_true, Bool.and_true, Bool.or_eq_true, Bool.or_eq_true, Option.any_eq_true, or_assoc]

theorem normalizedFilter_some (hblank : trim keyword ≠ "") (hall : trim keyword ≠ "all") :
    normalizedFilter (some keyword) = some (trim keyword) := by
  unfold normalizedFilter isEmpty
  simp [Option.filter, hblank, hall]

/-- **Plain keywords** are searched for literally. -/
theorem searchIsLiteral_of_plain (hlikes : sql.Likes fold) (hfold : Like.Folds fold)
    (hblank : trim keyword ≠ "") (hplain : PlainKeyword (trim keyword)) :
    SearchIsLiteral sql fold keyword := by
  intro s actor query sort hkeyword hstatus hrole hsort
  have hfilter : normalizedFilter query.keyword = some (trim keyword) := by
    rw [hkeyword]
    exact normalizedFilter_some hblank hplain.filters
  have haccepted : query.Accepted := by
    unfold PageQuery.Accepted PageQuery.params UserListParams.refused
    simp only [hfilter, hstatus, hrole]
    exact ⟨rfl, fun _ => by simp [hplain.accepted, normalizedFilter]⟩
  refine finds_of_match haccepted hsort fun id row => ?_
  rw [params_keyword hfilter hstatus hrole]
  simp only [ilike_plain hlikes hfold hplain.literal]
  rfl

/-- The query for a keyword. -/
def keywordQuery (keyword : String) : PageQuery :=
  ⟨none, none, some keyword, none, none, none, none⟩

/-- A literal search does not list the account, unless the keyword occurs in a name of it. -/
theorem named_of_literal (hliteral : SearchIsLiteral sql fold keyword) {row : UserRow}
    (hlive : row.deletedAt = none)
    (hmatch : isMatch sql (committed (single row)) ((keywordQuery keyword).params .createdAtDesc)
      (1, row) = true) : Named fold (trim keyword) row :=
  have hrow : (single row).store.get Table.users (1 : Nat) = some row :=
    Store.get_set_self Store.empty Table.users (1 : Nat) (some row)
  match_of_finds rfl (hliteral (single row) everyone (keywordQuery keyword) .createdAtDesc rfl
    rfl rfl rfl) hrow hlive rfl hmatch

/-- A keyword of three characters does not occur in a name of one. -/
theorem not_occurs_of_length {text : String} (h : text.toList.length < keyword.toList.length) :
    ¬ Occurs fold keyword text := by
  intro hoccurs
  have hle := hoccurs.length_le
  simp only [List.length_map] at hle
  omega

/-- **`all` is no filter**: every account is listed. -/
theorem not_searchIsLiteral_all (hall : trim keyword = "all") :
    ¬ SearchIsLiteral sql fold keyword := by
  intro hliteral
  have hfilter : normalizedFilter (keywordQuery keyword).keyword = none := by
    show ((some keyword).map trim).filter _ = none
    simp [hall, Option.filter]
  have hnamed : Named fold (trim keyword) (named "-") := by
    apply named_of_literal hliteral rfl
    unfold isMatch PageQuery.params
    rw [hfilter]
    rfl
  rw [hall] at hnamed
  rcases hnamed with h | h | ⟨_, hemail, -⟩
  · exact not_occurs_of_length (by decide) h
  · exact not_occurs_of_length (by decide) h
  · cases hemail

/-- **U+0000 is refused**: the request fails, in every database. -/
theorem not_searchIsLiteral_refused (hblank : trim keyword ≠ "") (hall : trim keyword ≠ "all")
    (hrefused : refusesText (trim keyword) = true) : ¬ SearchIsLiteral sql fold keyword := by
  intro hliteral
  obtain ⟨_, _, _, _, page, c', hends, _⟩ := hliteral Sample.server everyone (keywordQuery keyword)
    .createdAtDesc rfl rfl rfl rfl
  have hfilter : normalizedFilter (keywordQuery keyword).keyword = some (trim keyword) :=
    normalizedFilter_some hblank hall
  have haccepted := (ends_userList.1 hends).1.2 .createdAtDesc
  unfold PageQuery.params UserListParams.refused at haccepted
  simp [hfilter, hrefused] at haccepted

/-- **Wildcards are wildcards**: an account is listed in whose names the keyword does not occur. -/
theorem not_searchIsLiteral_special (hlikes : sql.Likes fold) (hfold : Like.Folds fold)
    (hblank : trim keyword ≠ "") (hall : trim keyword ≠ "all")
    (hspecial : ∃ c ∈ (trim keyword).toList, Like.Special c) :
    ¬ SearchIsLiteral sql fold keyword := by
  intro hliteral
  obtain ⟨hfound, hsample⟩ := ilike_special hlikes hfold hspecial
  have hnamed : Named fold (trim keyword)
      (named (String.ofList (Like.sample (trim keyword).toList))) := by
    apply named_of_literal hliteral rfl
    have hfilter : normalizedFilter (keywordQuery keyword).keyword = some (trim keyword) :=
      normalizedFilter_some hblank hall
    have hstatus : (keywordQuery keyword).status = none := rfl
    have hrole : (keywordQuery keyword).role = none := rfl
    rw [params_keyword hfilter hstatus hrole]
    exact .inr (.inl hfound)
  rcases hnamed with h | h | ⟨_, hemail, -⟩
  · -- the username has no special character
    obtain ⟨c, hc, hwild⟩ := hspecial
    have hmem : fold c ∈ "-".toList.map fold := h.subset (List.mem_map_of_mem hc)
    have hdash : fold c = fold '-' := by simpa using hmem
    rw [(hfold c hwild c).2 rfl, eq_comm, hfold c hwild] at hdash
    rcases hwild with rfl | rfl | rfl <;> exact absurd hdash (by decide)
  · exact hsample h
  · cases hemail

/-- **Keyword search.** A keyword that is not blank is searched for literally, in every database and
for every actor, if and only if it is not `all` and has no `%`, `_`, backslash or U+0000. -/
theorem keywordSearch (hlikes : sql.Likes fold) (hfold : Like.Folds fold)
    (hblank : trim keyword ≠ "") :
    SearchIsLiteral sql fold keyword ↔ PlainKeyword (trim keyword) := by
  constructor
  · intro hliteral
    have hall : trim keyword ≠ "all" := fun hall => not_searchIsLiteral_all hall hliteral
    refine ⟨hall, ?_, ?_⟩
    · by_contra hrefused
      exact not_searchIsLiteral_refused hblank hall (by simpa using hrefused) hliteral
    · by_contra hspecial
      push Not at hspecial
      exact not_searchIsLiteral_special hlikes hfold hblank hall hspecial hliteral
  · exact searchIsLiteral_of_plain hlikes hfold hblank

end Keyword

/-- `ILIKE` in a database whose letters are those of ASCII. -/
def asciiSql : Sql where
  ilike text pattern := ((Like.pieces (pattern.toList.map Char.toLower)).map fun ps =>
    Like.isMatch ps (text.toList.map Char.toLower)).getD false
  collate a b := decide (a ≤ b)
  traceId _ := none

theorem asciiSql_likes : asciiSql.Likes Char.toLower := by
  intro text pattern ps hps
  show ((Like.pieces _).map _).getD false = _
  rw [hps]
  rfl

/-- No capital letter is folded to a special character. -/
theorem toLower_upper : ∀ n < 91, 65 ≤ n → ∀ c ∈ ['%', '_', '\\'],
    Char.toLower (Char.ofNat n) ≠ c ∧ Char.ofNat n ≠ c := by
  intro n hn hlow c hc
  have hall : ∀ n < 91, 65 ≤ n → (['%', '_', '\\'].all fun c =>
      Char.toLower (Char.ofNat n) != c && Char.ofNat n != c) = true := by
    decide +kernel
  have hat := List.all_eq_true.1 (hall n hn hlow) c hc
  simpa using hat

theorem folds_toLower : Like.Folds Char.toLower := by
  intro c hc d
  have hmem : c ∈ ['%', '_', '\\'] := by
    rcases hc with rfl | rfl | rfl <;> decide
  by_cases hupper : d.val ≥ 'A'.val ∧ d.val ≤ 'Z'.val
  · have hlow : 65 ≤ d.toNat := hupper.1
    have hhigh : d.toNat ≤ 90 := hupper.2
    obtain ⟨hlower, hself⟩ := toLower_upper d.toNat (by omega) hlow c hmem
    rw [Char.ofNat_toNat] at hlower hself
    exact iff_of_false hlower hself
  · unfold Char.toLower
    rw [dif_neg hupper]

theorem keywordSearch_root : SearchIsLiteral asciiSql Char.toLower " Root " :=
  (keywordSearch asciiSql_likes folds_toLower (by decide +kernel)).2
    (by decide +kernel)

/-- **`_`, `all` and U+0000**: the search for `_` lists an account in which it does not occur, and so
does the search for `all`; the search for U+0000 fails. -/
theorem underscore_not_literal :
    ¬ SearchIsLiteral asciiSql Char.toLower "_" ∧ ¬ SearchIsLiteral asciiSql Char.toLower "all" ∧
      ¬ SearchIsLiteral asciiSql Char.toLower (String.ofList [Char.ofNat 0]) :=
  ⟨not_searchIsLiteral_special asciiSql_likes folds_toLower (by decide +kernel) (by decide +kernel)
      ⟨'_', by decide +kernel, by decide⟩,
    not_searchIsLiteral_all (by decide +kernel),
    not_searchIsLiteral_refused (by decide +kernel) (by decide +kernel) (by decide +kernel)⟩

end ArcAdmin
