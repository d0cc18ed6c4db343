import ArcAdmin.Proofs.Hierarchy
import ArcAdmin.Services.AuditLogs
import ArcAdmin.Sample

/-!
# Following the audit cursor

A reader who follows `next_cursor` from the first page on sees every audit record once, from the
newest to the oldest, also while newer records are appended.

* **`parseCursor_encodeCursor`** — the cursor of a row is read back;
* **`Enumerates`** — the pages that a reader gets who follows the cursor;
* **`newestFirst_below`** — below the cursor stand the records that have not been read;
* **`auditLogs_enumerated`** — all pages together.
-/

namespace ArcAdmin

open ReadCommitted Paging
open Repositories.AuditLogs
open Services.AuditLogs

/-! ## The cursor

A cursor is two numbers with a point between them; both come back as they were, as the numbers are
those of columns of 64 bits.
-/

/-- What the columns `id BIGSERIAL` and `created_at` can hold. -/
structure Storable (e : Nat × AuditLogRow) : Prop where
  positive : 0 < e.1
  id : (e.1 : Int) < 2 ^ 63
  low : minTimestampMicros ≤ e.2.createdAt
  high : e.2.createdAt ≤ maxTimestampMicros

/-- A number in decimal has no point. -/
theorem point_notMem_toString (n : Int) : '.' ∉ (toString n).toList := by
  have hdigits : ∀ m, '.' ∉ Nat.toDigits 10 m := fun m hin =>
    absurd (Nat.isDigit_of_mem_toDigits (by decide) (by decide) hin) (by decide)
  cases n with
  | ofNat m =>
    rw [show (toString (Int.ofNat m)).toList = Nat.toDigits 10 m from toList_toString_nat m]
    exact hdigits m
  | negSucc m =>
    rw [toList_toString_negSucc, List.mem_cons]
    rintro (h | h)
    · exact absurd h (by decide)
    · exact hdigits _ h

/-- **The cursor of a row is read back.** -/
theorem parseCursor_encodeCursor {sql : Sql} {s : Snap} {e : Nat × AuditLogRow}
    (h : Storable e) : parseCursor (encodeCursor (listed sql s e)) = .ok (e.2.createdAt, e.1) := by
  have htext : (encodeCursor (listed sql s e)).toList =
      (toString e.2.createdAt).toList ++ '.' :: (toString (e.1 : Int)).toList := by
    show (toString e.2.createdAt ++ "." ++ toString e.1).toList = _
    rw [String.toList_append, String.toList_append, List.append_assoc]
    rfl
  have hmin : -(2 ^ 63) ≤ minTimestampMicros := by decide
  have hmax : maxTimestampMicros < 2 ^ 63 := by decide
  have htimestamp : parseI64 (toString e.2.createdAt).toList = some e.2.createdAt :=
    parseI64_toString (Int.le_trans hmin h.low) (Int.lt_of_le_of_lt h.high hmax)
  have hid : parseI64 (toString (e.1 : Int)).toList = some (e.1 : Int) :=
    parseI64_toString (by omega) h.id
  have hmicros : fromTimestampMicros e.2.createdAt = some e.2.createdAt := if_pos ⟨h.low, h.high⟩
  have hpositive : ¬(e.1 : Int) ≤ 0 := by
    have := h.positive
    omega
  unfold parseCursor
  rw [htext, splitOnce_append (point_notMem_toString _)]
  simp only [Option.elim_some, bind, Except.bind, pure, Except.pure, htimestamp, hid, hmicros,
    if_neg hpositive, Int.toNat_natCast]

/-! ## One page

A page asks for one row more than it shows. Whether there was one tells whether there is a next
page.
-/

section Page

variable {sql : Sql} {actor : ActorContext} {query : AuditLogQuery}

/-- How many rows a page has. -/
def AuditLogQuery.rowsPerPage (query : AuditLogQuery) : Nat :=
  (max 1 (min (query.pageSize.getD 20) 100)).toNat

theorem AuditLogQuery.rowsPerPage_pos (query : AuditLogQuery) : 0 < query.rowsPerPage := by
  unfold rowsPerPage
  omega

/-- The records that match the query, as a server has them. -/
def matching (sql : Sql) (actor : ActorContext) (query : AuditLogQuery) (s : Server Table) :
    List (Nat × AuditLogRow) :=
  newestFirst sortKey (selected sql (committed s) actor (normalizedFilter query.keyword)
    (normalizedFilter query.action))

/-- The records that a query with a cursor asks for. -/
def matchingBelow (sql : Sql) (actor : ActorContext) (query : AuditLogQuery) (s : Server Table)
    (cursor : Option (Int × Nat)) : List (Nat × AuditLogRow) :=
  newestFirst sortKey ((selected sql (committed s) actor (normalizedFilter query.keyword)
    (normalizedFilter query.action)).filter (below sortKey (cursor.map toLex)))

/-- The request for the page that the cursor stands before. -/
def AuditLogQuery.at (query : AuditLogQuery) (cursor : Option String) : AuditLogQuery :=
  { query with page := none, cursor }

/-- Whatever cursor a request has, it starts at the first record that is left. -/
theorem listIn_first (s : Server Table) (parsed : Option (Int × Nat)) :
    listIn sql (committed s) actor (normalizedFilter query.keyword)
        (normalizedFilter query.action) 1 query.rowsPerPage parsed =
      ((matchingBelow sql actor query s parsed).take (query.rowsPerPage + 1)).map
        (listed sql (committed s)) := by
  have hoffset : (if parsed.isSome then 0 else (1 - 1) * query.rowsPerPage) = 0 := by
    split <;> simp
  unfold listIn
  simp only [hoffset, List.drop_zero]
  rfl

/-- The page that shows `rows`, of which there may be one too many. The one too many is not
shown; it only tells that there is a next page, whose cursor is the last row that is shown. -/
def pageOf (sql : Sql) (actor : ActorContext) (query : AuditLogQuery) (s : Server Table)
    (rows : List Listed) : PageAuditLog :=
  let more := rows.length > query.rowsPerPage
  let shown := if more then rows.dropLast else rows
  { items := shown.map auditLogResponse
    total := (matching sql actor query s).length
    page := 1
    pageSize := query.rowsPerPage
    nextCursor := if more then shown.getLast?.map encodeCursor else none }

/-- **What one request returns.** -/
theorem ends_list {s : Server Table} {c' : Conn Table} {cursor : Option String}
    {page : PageAuditLog} :
    Ends 0 (Services.AuditLogs.list sql actor (query.at cursor)) ⟨none, s⟩ page c' ↔
      c' = ⟨none, s⟩ ∧ ∃ parsed, cursor.mapM parseCursor = .ok parsed ∧
        page = pageOf sql actor query s
          (((matchingBelow sql actor query s parsed).take (query.rowsPerPage + 1)).map
            (listed sql (committed s))) := by
  have htotal : (matching sql actor query s).length =
      (selected sql (committed s) actor (normalizedFilter query.keyword)
        (normalizedFilter query.action)).length := List.length_insertionSort _ _
  unfold Services.AuditLogs.list Repositories.AuditLogs.list Repositories.AuditLogs.count
  simp only [ends_bind, ends_okOrThrow, ends_poolQuery, Prog.pure_eq, ends_ret]
  constructor
  · rintro ⟨parsed, _, ⟨hparsed, rfl⟩, rows, _, ⟨_, _, ⟨rfl, rfl⟩, rfl, rfl⟩, total, _,
      ⟨_, _, ⟨rfl, rfl⟩, rfl, rfl⟩, rfl, rfl⟩
    refine ⟨rfl, parsed, hparsed, ?_⟩
    rw [← listIn_first, pageOf, htotal]
    rfl
  · rintro ⟨rfl, parsed, hparsed, rfl⟩
    refine ⟨parsed, _, ⟨hparsed, rfl⟩, _, _, ⟨_, _, ⟨rfl, rfl⟩, rfl, rfl⟩, _, _,
      ⟨_, _, ⟨rfl, rfl⟩, rfl, rfl⟩, ?_, rfl⟩
    rw [← listIn_first, pageOf, htotal]
    rfl

/-- A page after which there are more. -/
theorem pageOf_more {s : Server Table} {f : Nat × AuditLogRow → Listed}
    {init rest : List (Nat × AuditLogRow)} {last next : Nat × AuditLogRow}
    (hlen : init.length + 1 = query.rowsPerPage) :
    let page := pageOf sql actor query s
      (((init ++ last :: next :: rest).take (query.rowsPerPage + 1)).map f)
    page.items = (init ++ [last]).map (fun e => auditLogResponse (f e)) ∧
      page.nextCursor = some (encodeCursor (f last)) := by
  have htake : (init ++ last :: next :: rest).take (query.rowsPerPage + 1) =
      (init ++ [last]) ++ [next] := by
    rw [← hlen, show init ++ last :: next :: rest = (init ++ [last, next]) ++ rest by simp,
      List.take_left' (by simp)]
    simp
  have hmore : ((init ++ [last] ++ [next]).map f).length > query.rowsPerPage := by
    simp only [List.length_map, List.length_append, List.length_singleton]
    omega
  have hshown : ((init ++ [last] ++ [next]).map f).dropLast = (init ++ [last]).map f := by
    have happend : (init ++ [last] ++ [next]).map f = (init ++ [last]).map f ++ [f next] :=
      List.map_append
    rw [happend, List.dropLast_concat]
  rw [htake]
  simp only [pageOf, hmore, if_true, hshown]
  simp

/-- The last page. -/
theorem pageOf_last {s : Server Table} {f : Nat × AuditLogRow → Listed}
    {rest : List (Nat × AuditLogRow)} (hlen : rest.length ≤ query.rowsPerPage) :
    let page := pageOf sql actor query s ((rest.take (query.rowsPerPage + 1)).map f)
    page.items = rest.map (fun e => auditLogResponse (f e)) ∧ page.nextCursor = none := by
  have hmore : ¬(rest.map f).length > query.rowsPerPage := by
    rw [List.length_map]
    omega
  rw [List.take_of_length_le (by omega)]
  simp only [pageOf, hmore, if_false, List.map_map, and_true]
  rfl

end Page

/-! ## All pages

Between two requests records may be appended, whose keys are greater than all that were there.
They belong in front of what has been read, so they do not change what is left.
-/

/-- The states differ by audit records that were appended and are newer than all that were there. -/
structure Appended (s s' : Server Table) : Prop where
  users : ∀ id : Nat, s'.store.get .users id = s.store.get .users id
  departments : ∀ id : Nat, s'.store.get .departments id = s.store.get .departments id
  kept : ∀ (id : Nat) (row : AuditLogRow),
    s.store.get .auditLogs id = some row → s'.store.get .auditLogs id = some row
  newer : ∀ (id : Nat) (row : AuditLogRow), s'.store.get .auditLogs id = some row →
    s.store.get .auditLogs id = some row ∨ ∀ (id₀ : Nat) (row₀ : AuditLogRow),
      s.store.get .auditLogs id₀ = some row₀ → sortKey (id₀, row₀) < sortKey (id, row)

/-- **Following the cursor**: the items of the pages from the cursor on, where the state is
`states n` when the page after the first `n` is requested. -/
inductive Enumerates (sql : Sql) (actor : ActorContext) (query : AuditLogQuery)
    (states : Nat → Server Table) : Nat → Option String → List AuditLogResponse → Prop where
  | last {n : Nat} {cursor : Option String} {page : PageAuditLog} {c' : Conn Table}
      (hpage : Ends 0 (Services.AuditLogs.list sql actor (query.at cursor)) ⟨none, states n⟩ page
        c')
      (hnext : page.nextCursor = none) : Enumerates sql actor query states n cursor page.items
  | more {n : Nat} {cursor : Option String} {page : PageAuditLog} {c' : Conn Table} {next : String}
      {rest : List AuditLogResponse}
      (hpage : Ends 0 (Services.AuditLogs.list sql actor (query.at cursor)) ⟨none, states n⟩ page
        c')
      (hnext : page.nextCursor = some next)
      (hrest : Enumerates sql actor query states (n + 1) (some next) rest) :
      Enumerates sql actor query states n cursor (page.items ++ rest)

section Enumerates

variable {sql : Sql} {actor : ActorContext} {query : AuditLogQuery} {states : Nat → Server Table}

theorem enumerates_iff {n : Nat} {cursor : Option String} {items : List AuditLogResponse} :
    Enumerates sql actor query states n cursor items ↔
      ∃ page c', Ends 0 (Services.AuditLogs.list sql actor (query.at cursor)) ⟨none, states n⟩
          page c' ∧
        ((page.nextCursor = none ∧ items = page.items) ∨
          ∃ next rest, page.nextCursor = some next ∧
            Enumerates sql actor query states (n + 1) (some next) rest ∧
              items = page.items ++ rest) := by
  constructor
  · rintro (⟨hpage, hnext⟩ | ⟨hpage, hnext, hrest⟩)
    · exact ⟨_, _, hpage, .inl ⟨hnext, rfl⟩⟩
    · exact ⟨_, _, hpage, .inr ⟨_, _, hnext, hrest, rfl⟩⟩
  · rintro ⟨page, c', hpage, ⟨hnext, rfl⟩ | ⟨next, rest, hnext, hrest, rfl⟩⟩
    · exact .last hpage hnext
    · exact .more hpage hnext hrest

theorem sortKey_nodup (s : Server Table) (p : Nat × AuditLogRow → Bool) :
    (((s.store.rows .auditLogs).filter p).map sortKey).Nodup := by
  have hkeys := ((List.filter_sublist (p := p) (l := s.store.rows .auditLogs)).map
    Prod.fst).nodup (Store.rows_keys_nodup s.store .auditLogs)
  refine List.Nodup.of_map (fun k : Int ×ₗ Nat => (ofLex k).2) ?_
  rw [List.map_map]
  exact hkeys

theorem mem_selected {s : Snap} {keyword action : Option String} {e : Nat × AuditLogRow} :
    e ∈ selected sql s actor keyword action ↔ s.store.get .auditLogs e.1 = some e.2 ∧
      isVisible s actor e.2 = true ∧ isMatch sql s keyword action e = true := by
  have hrows : e ∈ s.store.rows .auditLogs ↔ s.store.get .auditLogs e.1 = some e.2 :=
    Store.mem_rows
  unfold selected
  rw [List.mem_filter, hrows, Bool.and_eq_true]

/-- Visibility depends on the departments of the actor's organization. -/
theorem isVisible_congr {s s' : Snap} {row : AuditLogRow}
    (h : Repositories.Departments.SameDepartments actor.organizationId s s') :
    isVisible s actor row = isVisible s' actor row := by
  unfold isVisible
  rw [Repositories.Departments.visibleDepartments_contains_congr h]

theorem isMatch_congr {s s' : Snap} {keyword action : Option String} {e : Nat × AuditLogRow}
    (h : actorUsername s e.2 = actorUsername s' e.2) :
    isMatch sql s keyword action e = isMatch sql s' keyword action e := by
  unfold isMatch
  rw [h]

theorem listed_congr {s s' : Snap} {e : Nat × AuditLogRow}
    (h : actorUsername s e.2 = actorUsername s' e.2) : listed sql s e = listed sql s' e := by
  unfold listed
  rw [h]

namespace Appended

variable {s s' : Server Table}

theorem actorUsername (h : Appended s s') (row : AuditLogRow) :
    Repositories.AuditLogs.actorUsername (committed s') row =
      Repositories.AuditLogs.actorUsername (committed s) row := by
  unfold Repositories.AuditLogs.actorUsername
  refine congrArg _ (congrArg _ ?_)
  funext id
  exact h.users id

/-- An initial record is selected later iff it is selected now. -/
theorem mem_selected_iff (h : Appended s s') {keyword action : Option String}
    {e : Nat × AuditLogRow} (he : s.store.get .auditLogs e.1 = some e.2) :
    e ∈ selected sql (committed s') actor keyword action ↔
      e ∈ selected sql (committed s) actor keyword action := by
  have hsame : Repositories.Departments.SameDepartments actor.organizationId (committed s')
      (committed s) := by
    intro id row _
    show s'.store.get .departments id = _ ↔ s.store.get .departments id = _
    rw [h.departments]
  rw [mem_selected, mem_selected, isVisible_congr hsame, isMatch_congr (h.actorUsername e.2)]
  exact and_congr_left' ⟨fun _ => he, fun _ => h.kept e.1 e.2 he⟩

end Appended

/-- **Below the cursor stand the records that have not been read**, whatever has been appended. -/
theorem newestFirst_below {s s' : Server Table} (h : Appended s s')
    {done rest : List (Nat × AuditLogRow)} {last : Nat × AuditLogRow}
    (hmatching : matching sql actor query s = done ++ last :: rest) :
    matchingBelow sql actor query s' (some (last.2.createdAt, last.1)) = rest := by
  have hdesc : Descending sortKey (done ++ last :: rest) := by
    rw [← hmatching]
    exact descending_newestFirst (sortKey_nodup s _)
  have hselected : ∀ e, e ∈ done ++ last :: rest ↔ e ∈ selected sql (committed s) actor
      (normalizedFilter query.keyword) (normalizedFilter query.action) := by
    intro e
    rw [← hmatching]
    exact mem_newestFirst
  have hlast := mem_selected.1 ((hselected last).1 (by simp))
  have hrest : Descending sortKey rest :=
    (List.pairwise_cons.1 (List.pairwise_append.1 hdesc).2.1).2
  have hnodup : (((selected sql (committed s') actor (normalizedFilter query.keyword)
      (normalizedFilter query.action)).filter
        (below sortKey (some (last.2.createdAt, last.1) |>.map toLex))).map sortKey).Nodup := by
    unfold selected
    rw [List.filter_filter]
    exact sortKey_nodup s' _
  refine newestFirst_eq hnodup hrest fun e => ?_
  have hbelow : below sortKey (some (last.2.createdAt, last.1) |>.map toLex) e = true ↔
      sortKey e < sortKey last := decide_eq_true_iff
  rw [hdesc.mem_rest, hselected e, List.mem_filter, hbelow]
  refine and_congr_left fun hlt => ⟨fun he => ?_, fun he => ?_⟩
  · exact (h.mem_selected_iff (mem_selected.1 he).1).2 he
  · rcases h.newer e.1 e.2 (mem_selected.1 he).1 with hold | hnew
    · exact (h.mem_selected_iff hold).1 he
    · -- what was appended is newer than the last record that has been read
      exact absurd hlt (lt_asymm (hnew last.1 last.2 hlast.1))

/-- **From every cursor on** the reader gets the records that are left. -/
theorem enumerates_rest (happended : ∀ n, Appended (states 0) (states n))
    (hstorable : ∀ (id : Nat) (row : AuditLogRow),
      (states 0).store.get .auditLogs id = some row → Storable (id, row))
    {done rest : List (Nat × AuditLogRow)} {n : Nat} {cursor : Option String}
    {parsed : Option (Int × Nat)} {items : List AuditLogResponse}
    (hmatching : matching sql actor query (states 0) = done ++ rest)
    (hparsed : cursor.mapM parseCursor = .ok parsed)
    (hbelow : matchingBelow sql actor query (states n) parsed = rest) :
    Enumerates sql actor query states n cursor items ↔
      items = rest.map fun e => auditLogResponse (listed sql (committed (states 0)) e) := by
  induction hlen : rest.length using Nat.strong_induction_on
    generalizing done rest n cursor parsed items with
  | _ m ih =>
    have hlisted : listed sql (committed (states n)) = listed sql (committed (states 0)) := by
      funext e
      exact listed_congr ((happended n).actorUsername e.2)
    have hpage : ∀ page c', Ends 0 (Services.AuditLogs.list sql actor (query.at cursor))
        ⟨none, states n⟩ page c' ↔ c' = ⟨none, states n⟩ ∧
          page = pageOf sql actor query (states n) ((rest.take (query.rowsPerPage + 1)).map
            (listed sql (committed (states 0)))) := by
      intro page c'
      rw [ends_list, ← hlisted]
      refine and_congr_right fun _ => ⟨?_, fun heq => ⟨parsed, hparsed, hbelow ▸ heq⟩⟩
      rintro ⟨parsed', hparsed', heq⟩
      rw [hparsed] at hparsed'
      cases hparsed'
      rw [← hbelow]
      exact heq
    rw [enumerates_iff]
    by_cases hmore : query.rowsPerPage < rest.length
    · obtain ⟨init, last, next, post, hrest, hinit⟩ :=
        exists_of_lt_length query.rowsPerPage_pos hmore
      -- the next request starts below the last row of this page
      have hmatching' : matching sql actor query (states 0) =
          (done ++ init) ++ last :: (next :: post) := by
        rw [hmatching, hrest, List.append_assoc]
      have hlast : Storable last := by
        have hin : last ∈ matching sql actor query (states 0) := by simp [hmatching']
        exact hstorable _ _ (mem_selected.1 (mem_newestFirst.1 hin)).1
      have hrec : ∀ items', Enumerates sql actor query states (n + 1)
          (some (encodeCursor (listed sql (committed (states 0)) last))) items' ↔
          items' = (next :: post).map fun e =>
            auditLogResponse (listed sql (committed (states 0)) e) := by
        intro items'
        refine ih (next :: post).length ?_
          (hmatching'.trans (List.append_cons _ last (next :: post))) ?_
          (newestFirst_below (happended (n + 1)) hmatching') rfl
        · rw [← hlen, hrest]
          simp
          omega
        · rw [Option.mapM_some, parseCursor_encodeCursor hlast]
          rfl
      obtain ⟨hitems, hnext⟩ : _ ∧ _ := pageOf_more (s := states n)
        (f := listed sql (committed (states 0))) hinit
      rw [← hrest] at hitems hnext
      constructor
      · rintro ⟨page, c', hends, hcase⟩
        obtain ⟨rfl, rfl⟩ := (hpage _ _).1 hends
        rcases hcase with ⟨hnone, _⟩ | ⟨text, items', hsome, henum, rfl⟩
        · rw [hnext] at hnone
          cases hnone
        · rw [hnext] at hsome
          cases hsome
          rw [(hrec items').1 henum, hitems, hrest]
          simp
      · rintro rfl
        refine ⟨_, _, (hpage _ _).2 ⟨rfl, rfl⟩, .inr ⟨_, _, hnext, (hrec _).2 rfl, ?_⟩⟩
        rw [hitems, hrest]
        simp
    · obtain ⟨hitems, hnext⟩ : _ ∧ _ := pageOf_last (s := states n)
        (f := listed sql (committed (states 0))) (Nat.not_lt.1 hmore)
      constructor
      · rintro ⟨page, c', hends, hcase⟩
        obtain ⟨rfl, rfl⟩ := (hpage _ _).1 hends
        rcases hcase with ⟨_, rfl⟩ | ⟨text, items', hsome, _⟩
        · exact hitems
        · rw [hnext] at hsome
          cases hsome
      · rintro rfl
        exact ⟨_, _, (hpage _ _).2 ⟨rfl, rfl⟩, .inl ⟨hnext, hitems.symm⟩⟩

/-- **Following the cursor shows every record once.** Whoever starts without page and cursor, and
asks again with `next_cursor` until it is absent, gets all records that the query matches and the
actor sees, from the newest to the oldest, whatever newer ones are appended in the meantime; and
every cursor is read back. -/
theorem auditLogs_enumerated (sql : Sql) (actor : ActorContext) (query : AuditLogQuery)
    (states : Nat → Server Table) (happended : ∀ n, Appended (states 0) (states n))
    (hstorable : ∀ (id : Nat) (row : AuditLogRow),
      (states 0).store.get .auditLogs id = some row → Storable (id, row)) :
    (∃ items, (∀ items', Enumerates sql actor query states 0 none items' ↔ items' = items) ∧
      (items.Pairwise fun a b => toLex (b.createdAt, b.id) < toLex (a.createdAt, a.id)) ∧
      ∀ item, item ∈ items ↔ ∃ (id : Nat) (row : AuditLogRow),
        (states 0).store.get .auditLogs id = some row ∧
        isVisible (committed (states 0)) actor row = true ∧
        isMatch sql (committed (states 0)) (normalizedFilter query.keyword)
          (normalizedFilter query.action) (id, row) = true ∧
        item = auditLogResponse (listed sql (committed (states 0)) (id, row))) ∧
    ∀ (id : Nat) (row : AuditLogRow), (states 0).store.get .auditLogs id = some row →
      parseCursor (encodeCursor (listed sql (committed (states 0)) (id, row))) =
        .ok (row.createdAt, id) := by
  refine ⟨⟨(matching sql actor query (states 0)).map fun e =>
    auditLogResponse (listed sql (committed (states 0)) e), fun items' => ?_, ?_, fun item => ?_⟩,
    fun id row hrow => parseCursor_encodeCursor (hstorable id row hrow)⟩
  · have hmatching : matching sql actor query (states 0) =
        [] ++ matching sql actor query (states 0) := rfl
    have hparsed : (none : Option String).mapM parseCursor = .ok none := rfl
    refine enumerates_rest happended hstorable hmatching hparsed ?_
    exact congrArg (newestFirst sortKey) (List.filter_eq_self.2 fun _ _ => rfl)
  · exact List.pairwise_map.2 (descending_newestFirst (sortKey_nodup (states 0) _))
  · rw [List.mem_map]
    constructor
    · rintro ⟨e, he, rfl⟩
      obtain ⟨hrow, hvisible, hmatch⟩ := mem_selected.1 (mem_newestFirst.1 he)
      exact ⟨e.1, e.2, hrow, hvisible, hmatch, rfl⟩
    · rintro ⟨id, row, hrow, hvisible, hmatch, rfl⟩
      exact ⟨(id, row), mem_newestFirst.2 (mem_selected.2 ⟨hrow, hvisible, hmatch⟩), rfl⟩

end Enumerates

/-- Two records of one time. -/
def twoRecords : Server Table where
  store :=
    let row : AuditLogRow := {
      actorUserId := none, action := "user.login", targetType := "user", targetId := none
      details := [], organizationId := none, departmentId := none, createdAt := 1700000000123456 }
    (Store.empty.set .auditLogs (1 : Nat) (some row)).set .auditLogs (2 : Nat) (some row)
  log := []
  clock := 0
  seq := 3

theorem twoRecords_storable : ∀ (id : Nat) (row : AuditLogRow),
    twoRecords.store.get .auditLogs id = some row → Storable (id, row) := by
  let records : List (Nat × AuditLogRow) := twoRecords.store.rows .auditLogs
  have hall : ∀ e ∈ records, 0 < e.1 ∧ (e.1 : Int) < 2 ^ 63 ∧
      minTimestampMicros ≤ e.2.createdAt ∧ e.2.createdAt ≤ maxTimestampMicros := by decide
  intro id row hrow
  obtain ⟨hpositive, hid, hlow, hhigh⟩ := hall (id, row) (Store.mem_rows.2 hrow)
  exact ⟨hpositive, hid, hlow, hhigh⟩

theorem auditLogs_enumerated_twoRecords :
    ∃ items, ∀ items', Enumerates Sample.sql ⟨1, 1, 1, none, .all, []⟩
      ⟨none, some 1, none, none, none⟩ (fun _ => twoRecords) 0 none items' ↔ items' = items := by
  obtain ⟨⟨items, hitems, _⟩, _⟩ := auditLogs_enumerated Sample.sql ⟨1, 1, 1, none, .all, []⟩
    ⟨none, some 1, none, none, none⟩ (fun _ => twoRecords)
    (fun _ => ⟨fun _ => rfl, fun _ => rfl, fun _ _ h => h, fun _ _ h => .inl h⟩) twoRecords_storable
  exact ⟨items, hitems⟩

end ArcAdmin
