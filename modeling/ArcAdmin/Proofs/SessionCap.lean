import ArcAdmin.ReadCommitted.Fate
import ArcAdmin.ReadCommitted.Script
import ArcAdmin.Proofs.Logins
import ArcAdmin.Sample

/-!
# The session cap

`create_login_session` inserts a session and then revokes all but the newest ones, in two
statements whose snapshots do not show the sessions of logins that have yet to commit. What makes
the count right is `update_last_login`, which comes first: it locks the user's row, so that no
other transaction that has inserted a session of the same user can commit before this one ends.

* **`open_shrinks`** — while the row of a user is locked, the others only ever close sessions of it;
* **`enforceUserLimit_caps`** — once every row outside the kept ones has been visited, the open
  sessions are among them;
* **`sessionCap`** — the cap, over all interleavings of all requests;
* **`newSession_usable`** — a new session is not evicted by its own login, unless newer ones fill
  the cap.
-/

namespace ArcAdmin

open ReadCommitted
open Repositories.AuthSessions (newerFirst)

/-! ## Open sessions

The open sessions of a user, and what it means that there are no more than `max`.
-/

/-- The user has an unrevoked session under that key, created at that time. -/
def OpenSince (s : Store Table) (userId id time : Nat) : Prop :=
  ∃ row : SessionRow, s.get .authSessions id = some row ∧ row.userId = userId ∧
    row.revokedAt = none ∧ row.createdAt = time

/-- The user has an unrevoked session under that key. -/
def OpenSession (s : Store Table) (userId id : Nat) : Prop := ∃ time, OpenSince s userId id time

/-- The unrevoked sessions of a user. -/
def openSessions (s : Store Table) (userId : Nat) : List Nat :=
  ((s.rows .authSessions).filter fun e => e.2.userId == userId && e.2.revokedAt.isNone).map (·.1)

theorem mem_openSessions {s : Store Table} {userId id : Nat} :
    id ∈ openSessions s userId ↔ OpenSession s userId id := by
  constructor
  · intro h
    obtain ⟨e, he, rfl⟩ := List.mem_map.1 h
    obtain ⟨hrow, hopen⟩ := List.mem_filter.1 he
    have hboth : e.2.userId = userId ∧ e.2.revokedAt = none := by simpa using hopen
    exact ⟨_, e.2, Store.mem_rows.1 hrow, hboth.1, hboth.2, rfl⟩
  · rintro ⟨_, row, hrow, huser, hopen, _⟩
    exact List.mem_map.2 ⟨(id, row), List.mem_filter.2 ⟨Store.mem_rows.2 hrow, by simp [huser, hopen]⟩,
      rfl⟩

theorem openSessions_nodup (s : Store Table) (userId : Nat) : (openSessions s userId).Nodup := by
  have hsub := (List.filter_sublist (l := s.rows .authSessions)
    (p := fun e => e.2.userId == userId && e.2.revokedAt.isNone)).map Prod.fst
  exact (Store.rows_keys_nodup s .authSessions).sublist hsub

/-- The open sessions of a user are among `max` ones. -/
def Capped (s : Store Table) (userId max : Nat) : Prop :=
  ∃ kept : List Nat, kept.length ≤ max ∧ ∀ id, OpenSession s userId id → id ∈ kept

theorem Capped.length_le {s : Store Table} {userId max : Nat} (h : Capped s userId max) :
    (openSessions s userId).length ≤ max := by
  obtain ⟨kept, hlen, hall⟩ := h
  have hsub : openSessions s userId ⊆ kept := fun id hid => hall id (mem_openSessions.1 hid)
  have hle := (List.subperm_of_subset (openSessions_nodup s userId) hsub).length_le
  omega

/-- Closing sessions keeps a cap. -/
theorem Capped.mono {s s' : Store Table} {userId max : Nat} (h : Capped s userId max)
    (hsub : ∀ id, OpenSession s' userId id → OpenSession s userId id) : Capped s' userId max := by
  obtain ⟨kept, hlen, hall⟩ := h
  exact ⟨kept, hlen, fun id hid => hall id (hsub id hid)⟩

/-! ## The contract

Whoever commits a new session has locked its user and counted. Whoever does not may close sessions
and remove them.
-/

/-- The row `new` is `old` with another `last_seen_at`, or revoked. -/
def Continues (old new : SessionRow) : Prop :=
  old.userId = new.userId ∧ old.createdAt = new.createdAt ∧
    (new.revokedAt = none → old.revokedAt = none)

theorem Continues.refl (r : SessionRow) : Continues r r := ⟨rfl, rfl, id⟩

theorem Continues.trans {r r' r'' : SessionRow} (h : Continues r r') (h' : Continues r' r'') :
    Continues r r'' :=
  ⟨h.1.trans h'.1, h.2.1.trans h'.2.1, fun hopen => h.2.2 (h'.2.2 hopen)⟩

/-- Sessions have been closed or deleted, and none has been inserted. -/
def SessionKept (_ : Nat) (old new : Option SessionRow) : Prop :=
  ∀ r', new = some r' → ∃ r, old = some r ∧ Continues r r'

/-- Sessions have been closed or deleted, and some have been inserted. -/
def SessionGrown (_ : Nat) (old new : Option SessionRow) : Prop :=
  ∀ r', new = some r' → old = none ∨ ∃ r, old = some r ∧ Continues r r'

/-- Sessions have been closed or deleted, and one has been inserted: the user's, under the key
`n`. -/
def SessionOf (userId n id : Nat) (old new : Option SessionRow) : Prop :=
  ∀ r', new = some r' → (old = none ∧ r'.userId = userId ∧ id = n) ∨
    ∃ r, old = some r ∧ Continues r r'

/-- An inserted session is open, if fewer than `max` sessions were open then that had been created
by later transactions. -/
def Usable (max : Nat) (_ : Nat) (old new : Option SessionRow) : Prop :=
  old = none → ∀ r, new = some r → r.later < max → r.revokedAt = none

/-- The transaction has inserted a session of the user. -/
def Inserted (c : Conn Table) (userId : Nat) : Prop :=
  ∃ (id : Nat) (r : SessionRow), c.server.store.get .authSessions id = none ∧
    c.view.get .authSessions id = some r ∧ r.userId = userId

/-- No user is ever removed. -/
def UsersKept (c : Conn Table) : Prop :=
  ∀ u : Nat, (c.server.store.get .users u).isSome → (c.view.get .users u).isSome

theorem usersKept {ε ρ Req : Type} {prog : Req → Prog Table ε ρ} {s₀ : Server Table}
    {C : ReadCommitted.Config Table ε ρ Req} (h₀ : s₀.Wf) (hC : Reachable prog s₀ C) (p : Nat) :
    UsersKept (C.conn p) := by
  intro u hu
  obtain ⟨row, hrow⟩ := Option.isSome_iff_exists.1 hu
  refine hC.row_seen (t := Table.users) (F := fun v => v.isSome) h₀ rfl ?_ hrow rfl p
  intro r new evs hok _
  cases new with
  | none => exact hok.elim
  | some r' => rfl

/-- **What every login owes**: whoever commits a new session owns the row of its user, sees no more
open sessions of that user than the cap allows, and the new session is usable. -/
def capContract (max : Nat) : Contract Table where
  base _ c := c.Wf ∧ UsersKept c
  inv s := ∀ u, Capped s.store u max
  guar _ c := c.RowRel .authSessions SessionGrown ∧ c.RowRel .authSessions (Usable max) ∧
    ∀ u : Nat, Inserted c u → c.Owns ⟨.users, u⟩ ∧ Capped c.view u max

section Cap

variable {max p : Nat} {env : External} {config : AuthSessionConfig}

theorem capContract_wf : (capContract max).WellFormed := fun _ _ h => h.1

/-- A step of the session protocol other than an insert. -/
theorem sessionProtocol_step {v v' : Option SessionRow} {evs : List Event}
    (hok : sessionProtocol v v' evs) (hsome : v.isSome) :
    ∀ r', v' = some r' → ∃ r, v = some r ∧ Continues r r' := by
  rintro r' rfl
  cases v with
  | none => cases hsome
  | some r =>
    obtain ⟨_, hnew, hrevoked⟩ := hok
    refine ⟨r, rfl, by rw [hnew], by rw [hnew], fun hopen => ?_⟩
    cases hr : r.revokedAt with
    | none => rfl
    | some t =>
      rw [hr, hopen] at hrevoked
      cases hrevoked rfl

/-- A session that continues an open one has been open as long. -/
theorem Continues.openSince {r r' : SessionRow} (h : Continues r r') {s : Store Table}
    {u id time : Nat} (hr : s.get .authSessions id = some r) (huser : r'.userId = u)
    (hrev : r'.revokedAt = none) (htime : r'.createdAt = time) : OpenSince s u id time :=
  ⟨r, hr, h.1.trans huser, h.2.2 hrev, h.2.1.trans htime⟩

/-- What a login has made of the user's sessions may be committed. -/
theorem cap_guar {u n : Nat} {c : Conn Table} (hb : ((capContract max).judge p).base c)
    (hown : c.Owns ⟨.users, u⟩) (hof : c.RowRel .authSessions (SessionOf u n))
    (husable : c.RowRel .authSessions (Usable max)) (hcap : Capped c.view u max) :
    ((capContract max).judge p).guar c := by
  refine ⟨⟨fun id r' hr' => ?_, husable, fun u' hins => ?_⟩, fun tx htx u' => ?_⟩
  · rcases hof id r' hr' with ⟨hold, _⟩ | hcont
    · exact .inl hold
    · exact .inr hcont
  · obtain ⟨id, r, hnone, hr, huser⟩ := hins
    rcases hof id r hr with ⟨_, huser', _⟩ | ⟨r₀, hr₀, _⟩
    · have hu : u' = u := huser.symm.trans huser'
      subst hu
      exact ⟨hown, hcap⟩
    · rw [hnone] at hr₀
      cases hr₀
  · obtain ⟨otx, s⟩ := c
    cases htx
    by_cases hu : u' = u
    · subst hu
      exact hcap
    · -- the sessions of the other users have at most been closed
      refine (hb.2 u').mono fun id hopen => ?_
      obtain ⟨time, r', hr', huser, hrev, htime⟩ := hopen
      rcases hof id r' hr' with ⟨_, huser', _⟩ | ⟨r, hr, hcont⟩
      · exact absurd (huser.symm.trans huser') hu
      · exact ⟨time, hcont.openSince hr huser hrev htime⟩

/-- A transaction that has inserted no session may commit. -/
theorem kept_guar {c : Conn Table} (hb : ((capContract max).judge p).base c)
    (hkept : c.RowRel .authSessions SessionKept) : ((capContract max).judge p).guar c := by
  have hnone : ∀ (id : Nat) (r : SessionRow), c.server.store.get .authSessions id = none →
      c.view.get .authSessions id ≠ some r := by
    intro id r hnone hr
    obtain ⟨r₀, hr₀, _⟩ := hkept id r hr
    rw [hnone] at hr₀
    cases hr₀
  refine ⟨⟨fun id r' hr' => .inr (hkept id r' hr'), fun id hold r hr => ?_, fun u hins => ?_⟩,
    fun tx htx u => ?_⟩
  · exact absurd hr (hnone id r hold)
  · obtain ⟨id, r, hold, hr, _⟩ := hins
    exact absurd hr (hnone id r hold)
  · obtain ⟨otx, s⟩ := c
    cases htx
    refine (hb.2 u).mono fun id hopen => ?_
    obtain ⟨time, r', hr', huser, hrev, htime⟩ := hopen
    obtain ⟨r, hr, hcont⟩ := hkept id r' hr'
    exact ⟨time, hcont.openSince hr huser hrev htime⟩

/-- Whatever opens no session is carried past. -/
theorem carried_kept : Carried ((capContract max).judge p) (noInserts .authSessions)
    fun c => c.RowRel .authSessions SessionKept := by
  refine Contract.carried_rowRel capContract_wf (fun _ v r' hr' => ⟨r', hr', .refl r'⟩) ?_
    fun _ hb h => kept_guar hb h
  intro id old v v' evs hchange hok hkept r' hr'
  obtain ⟨r, hr, hcont⟩ := sessionProtocol_step hok (hchange rfl) r' hr'
  obtain ⟨r₀, hr₀, hcont₀⟩ := hkept r hr
  exact ⟨r₀, hr₀, hcont₀.trans hcont⟩

/-! ## What a login knows of its user

The row that a login has found long before is still there, as users are never removed.
-/

/-- What a login knows of the user row it has found: users are never removed. -/
def KnownUser (found : Repositories.Users.Found) (c : Conn Table) : Prop :=
  (c.server.store.get .users found.id).isSome

theorem stable_knownUser (found : Repositories.Users.Found) :
    ((capContract max).judge p).Stable (KnownUser found) := by
  intro c c' hr h
  obtain ⟨_, _, _, _, hi⟩ := hr
  cases hi with
  | tick d => exact h
  | draw d => exact h
  | commit q tx hq hcompat hcommits _ => exact hcommits.1.2 found.id h

theorem KnownUser.step (found : Repositories.Users.Found) (a : Act Table) {c : Conn Table}
    (hb : ((capContract max).judge p).base c) (h : KnownUser found c) :
    KnownUser found (a.step p c).2 := by
  unfold KnownUser
  rcases a.step_server p c with ⟨d, hserver⟩ | ⟨tx, htx, _, hserver⟩
  · rw [hserver]
    exact h
  · rw [hserver]
    obtain ⟨otx, s⟩ := c
    cases htx
    exact hb.1.2 found.id h

/-! ## While the user's row is locked

Another login of the same user waits at `update_last_login`, before it has inserted anything. So
what the others commit meanwhile are closed sessions.
-/

/-- **While the row of a user is locked, the others only ever close sessions of it.** -/
theorem open_shrinks {u : Nat} {c c' : Conn Table} (hr : ((capContract max).judge p).rely c c')
    (hown : c.Owns ⟨.users, u⟩) {id time : Nat} (hopen : OpenSince c'.view u id time) :
    OpenSince c.view u id time := by
  obtain ⟨hb, _, _, _, hi⟩ := hr
  obtain ⟨r', hr', huser, hrev, htime⟩ := hopen
  rcases hb.1.interferes_view capContract_wf.commits hi .authSessions id with
    ⟨hview, _⟩ | ⟨hseen, hseen'⟩
  · rw [hview] at hr'
    exact ⟨r', hr', huser, hrev, htime⟩
  · rw [hseen'] at hr'
    cases hi with
    | tick d => exact ⟨r', hseen.trans hr', huser, hrev, htime⟩
    | draw d => exact ⟨r', hseen.trans hr', huser, hrev, htime⟩
    | commit q tx hq hcompat hcommits _ =>
      obtain ⟨_, hgrown, _, hins⟩ := hcommits
      rcases hgrown id r' hr' with hnone | ⟨r, hr, hcont⟩
      · -- an inserted session: its transaction would own the row of the user too
        obtain ⟨⟨tx', htx', ho'⟩, _⟩ := hins u ⟨id, r', hnone, hr', huser⟩
        cases htx'
        obtain ⟨tx₀, htx₀, ho₀⟩ := hown
        exact absurd ho' ((hcompat tx₀ htx₀).not_owns ho₀)
      · exact hcont.openSince (hseen.trans hr) huser hrev htime

/-- A login before its insert: the user's row is locked. -/
def Locked (u : Nat) (c : Conn Table) : Prop :=
  c.Owns ⟨.users, u⟩ ∧ c.RowRel .authSessions SessionKept

/-- A login between its insert and its commit: the user's row is locked, and `n` is the session it
has inserted. Every open session of the user satisfies `K`. -/
def Opening (u n : Nat) (K : Nat → Nat → Prop) (c : Conn Table) : Prop :=
  c.Owns ⟨.users, u⟩ ∧ c.RowRel .authSessions (SessionOf u n) ∧
    ∀ id time, OpenSince c.view u id time → K id time

theorem Opening.mono {u n : Nat} {K K' : Nat → Nat → Prop} {c : Conn Table} (h : Opening u n K c)
    (hK : ∀ id time, K id time → K' id time) : Opening u n K' c :=
  ⟨h.1, h.2.1, fun id time hopen => hK id time (h.2.2 id time hopen)⟩

theorem stable_locked {u : Nat} : ((capContract max).judge p).Stable (Locked u) :=
  fun c c' hr h => ⟨hr.2.2.2.2.owns h.1, carried_kept.stable c c' hr h.2⟩

theorem stable_sessionOf {u n : Nat} :
    ((capContract max).judge p).Stable fun c => c.RowRel .authSessions (SessionOf u n) :=
  Contract.stable_rowRel capContract_wf fun _ _ r' hr' => .inr ⟨r', hr', .refl r'⟩

theorem stable_usable : ((capContract max).judge p).Stable fun c =>
    c.RowRel .authSessions (Usable max) := by
  refine Contract.stable_rowRel capContract_wf fun _ v hnone r hr => ?_
  rw [hnone] at hr
  cases hr

theorem stable_opening {u n : Nat} {K : Nat → Nat → Prop} :
    ((capContract max).judge p).Stable (Opening u n K) :=
  fun c c' hr h => ⟨hr.2.2.2.2.owns h.1, stable_sessionOf c c' hr h.2.1,
    fun id time hopen => h.2.2 id time (open_shrinks hr h.1 hopen)⟩

theorem Locked.frameClosed {u : Nat} : FrameClosed (noInserts .authSessions) (Locked u) := by
  intro c c' hf h
  have hcarried : Carried ((capContract 0).judge 0) (noInserts .authSessions)
      fun c => c.RowRel .authSessions SessionKept := carried_kept
  exact ⟨hf.owns h.1, hcarried.frame c c' hf h.2⟩

theorem Opening.frameClosed {u n : Nat} {K : Nat → Nat → Prop} :
    FrameClosed (noInserts .authSessions) (Opening u n K) := by
  intro c c' hf h
  refine ⟨hf.owns h.1, RowRel.framed ?_ h.2.1 hf, fun id time hopen => h.2.2 id time ?_⟩
  · intro id old v v' evs hchange hok hof r' hr'
    obtain ⟨r, hr, hcont⟩ := sessionProtocol_step hok (hchange rfl) r' hr'
    rcases hof r hr with ⟨hold, hu, hid⟩ | ⟨r₀, hr₀, hcont₀⟩
    · exact .inl ⟨hold, hcont.1.symm.trans hu, hid⟩
    · exact .inr ⟨r₀, hr₀, hcont₀.trans hcont⟩
  · obtain ⟨r', hr', huser, hrev, htime⟩ := hopen
    rcases hf.row .authSessions id with hsame | ⟨evs, hchange, hok⟩
    · rw [hsame] at hr'
      exact ⟨r', hr', huser, hrev, htime⟩
    · obtain ⟨r, hr, hcont⟩ := sessionProtocol_step hok (hchange rfl) r' hr'
      exact hcont.openSince hr huser hrev htime

/-- What a login reads in a session that it owns stays as it is. -/
theorem stable_ownSession {n : Nat} (φ : Option SessionRow → Prop) :
    ((capContract max).judge p).Stable fun c =>
      c.Owns ⟨.authSessions, n⟩ ∧ φ (c.view.get .authSessions n) :=
  Contract.stable_owned capContract_wf (t := Table.authSessions) φ

/-- A login whose new session `n` has been inserted: fewer than `l` sessions were newer then. -/
def Pending (u n l : Nat) (K : Nat → Nat → Prop) (c : Conn Table) : Prop :=
  Opening u n K c ∧ c.Owns ⟨.authSessions, n⟩ ∧
    ∀ row : SessionRow, c.view.get .authSessions n = some row → row.later = l

theorem Pending.mono {u n l : Nat} {K K' : Nat → Nat → Prop} {c : Conn Table}
    (h : Pending u n l K c) (hK : ∀ id time, K id time → K' id time) : Pending u n l K' c :=
  ⟨h.1.mono hK, h.2⟩

theorem stable_pending {u n l : Nat} {K : Nat → Nat → Prop} :
    ((capContract max).judge p).Stable (Pending u n l K) :=
  stable_opening.and (stable_ownSession fun v => ∀ row, v = some row → row.later = l)

theorem Pending.frameClosed {u n l : Nat} {K : Nat → Nat → Prop} :
    FrameClosed (noInserts .authSessions) (Pending u n l K) := by
  intro c c' hf h
  refine ⟨Opening.frameClosed c c' hf h.1, hf.owns h.2.1, fun row hrow => ?_⟩
  rcases hf.row .authSessions n with hsame | ⟨evs, hchange, hok⟩
  · rw [hsame] at hrow
    exact h.2.2 row hrow
  · rw [hrow] at hok
    cases hr : c.view.get .authSessions n with
    | none =>
      rw [hr] at hchange
      cases hchange rfl
    | some r =>
      rw [hr] at hok
      obtain ⟨_, hnew, _⟩ := hok
      rw [hnew]
      exact h.2.2 r hr

/-! ## The order of eviction

`ORDER BY created_at DESC, id DESC`, where `created_at` is the start of the transaction. It is the
reason why a session can be evicted by its own login.
-/

instance : Std.Total newerFirst where
  total a b := by
    unfold newerFirst
    omega

instance : IsTrans (Nat × SessionRow) newerFirst where
  trans a b c := by
    unfold newerFirst
    omega

/-- **A session is kept if fewer than the cap were created after it** and all others were numbered
before it. -/
theorem mem_keptSessions {s : Snap} {u n max : Nat} {row : SessionRow}
    (hrow : s.store.get .authSessions n = some row) (huser : row.userId = u)
    (hrev : row.revokedAt = none) {newer : List Nat} (hnewer : newer.length < max)
    (hall : ∀ id time, OpenSince s.store u id time →
      id = n ∨ (id < n ∧ (row.createdAt < time → id ∈ newer))) :
    n ∈ Repositories.AuthSessions.keptSessions s u max := by
  let opened := (s.store.rows .authSessions).filter fun e =>
    e.2.userId == u && e.2.revokedAt.isNone
  have hmem : (n, row) ∈ opened.insertionSort newerFirst :=
    (List.mem_insertionSort newerFirst).2
      (List.mem_filter.2 ⟨Store.mem_rows.2 hrow, by simp [huser, hrev]⟩)
  have hsorted := List.pairwise_insertionSort newerFirst opened
  have hnodup : ((opened.insertionSort newerFirst).map Prod.fst).Nodup := by
    have hperm := (List.perm_insertionSort newerFirst opened).map Prod.fst
    refine hperm.nodup_iff.2 ?_
    exact (Store.rows_keys_nodup s.store .authSessions).sublist (List.filter_sublist.map Prod.fst)
  obtain ⟨before, after, hsplit⟩ := List.append_of_mem hmem
  -- what is listed before the session is newer
  have hbefore : before.map Prod.fst ⊆ newer := by
    intro id hid
    obtain ⟨e, he, rfl⟩ := List.mem_map.1 hid
    have hlisted : e ∈ opened.insertionSort newerFirst := by
      rw [hsplit]
      exact List.mem_append_left _ he
    obtain ⟨hstored, hopen⟩ := List.mem_filter.1 ((List.mem_insertionSort newerFirst).1 hlisted)
    have hboth : e.2.userId = u ∧ e.2.revokedAt = none := by simpa using hopen
    have horder : newerFirst e (n, row) := by
      rw [hsplit] at hsorted
      exact (List.pairwise_append.1 hsorted).2.2 e he (n, row) List.mem_cons_self
    have hne : e.1 ≠ n := by
      intro heq
      rw [hsplit, List.map_append, List.map_cons] at hnodup
      have hdisjoint := (List.nodup_append.1 hnodup).2.2
      exact hdisjoint e.1 (List.mem_map_of_mem he) n List.mem_cons_self heq
    rcases hall e.1 _ ⟨e.2, Store.mem_rows.1 hstored, hboth.1, hboth.2, rfl⟩ with heq | ⟨hlt, hin⟩
    · exact absurd heq hne
    · refine hin ?_
      unfold newerFirst at horder
      dsimp only at horder
      omega
  have hlen : before.length ≤ newer.length := by
    have hnodup' : (before.map Prod.fst).Nodup := by
      rw [hsplit, List.map_append] at hnodup
      exact (List.nodup_append.1 hnodup).1
    have hle := (List.subperm_of_subset hnodup' hbefore).length_le
    rwa [List.length_map] at hle
  have htake : (n, row) ∈ (opened.insertionSort newerFirst).take max := by
    rw [hsplit, List.take_append, List.mem_append]
    right
    have hpos : 0 < max - before.length := by omega
    obtain ⟨k, hk⟩ := Nat.exists_eq_succ_of_ne_zero (Nat.ne_of_gt hpos)
    rw [hk, List.take_succ_cons]
    exact List.mem_cons_self
  exact List.mem_map.2 ⟨(n, row), htake, rfl⟩

/-! ## A login

The transaction of `create_login_session`, statement by statement.
-/

/-- **The update of `last_login_at` locks the user's row.** -/
theorem updateLastLogin_locks (found : Repositories.Users.Found) :
    Triple ((capContract max).judge p) p
      (fun c => (c.RowRel .authSessions SessionKept ∧ KnownUser found c) ∧ c.tx.isSome)
      (Repositories.Users.updateLastLogin found.id) fun _ => Locked found.id := by
  have hst : ((capContract max).judge p).Stable fun c =>
      (c.RowRel .authSessions SessionKept ∧ KnownUser found c) ∧ c.tx.isSome :=
    ((carried_kept (p := p)).stable.and (stable_knownUser found)).and
      (Contract.stable_tx fun otx => otx.isSome)
  refine Triple.bind (R := fun _ => Locked found.id) ?_ fun _ =>
    Triple.ret stable_locked fun _ _ hc => hc
  refine Triple.updateRow found.id (σ := fun _ => True) hst (fun _ => stable_locked) ?_
    (fun _ _ _ => trivial) ?_
  · intro s i r h
    simpa [Repositories.Users.updateLastLoginStmt] using h
  · rintro s c - hb ⟨⟨hkept, hknown⟩, htx⟩
    obtain ⟨tx, htx'⟩ := Option.isSome_iff_exists.1 htx
    obtain ⟨r, hr⟩ := Option.isSome_iff_exists.1 (hb.1.2 found.id hknown)
    refine ⟨tx, r, htx', hr, by simp [Repositories.Users.updateLastLoginStmt], ?_⟩
    obtain ⟨otx, srv⟩ := c
    cases htx'
    refine ⟨⟨_, rfl, tx.owns_write Table.users found.id _ _ rfl⟩, fun id => ?_⟩
    have hget := Store.get_set_of_table_ne (tx.view srv.store) (t := Table.users)
      (u := Table.authSessions) found.id
      (some ((Repositories.Users.updateLastLoginStmt found.id).set s r)) id (by decide)
    rw [Conn.view_some, Tx.view_write, hget]
    exact hkept id

/-- Statements between the lock on the user's row and the new session. -/
theorem besideLocked {α : Type} {m : Db α} {u : Nat}
    (hm : m.All (Act.Within (noInserts .authSessions))) :
    Triple ((capContract max).judge p) p (Locked u) m fun _ => Locked u :=
  Triple.within stable_locked Locked.frameClosed hm

/-- The transaction has inserted the open session `n` of the user. Open sessions that were created
later are among `newer`, and all others were numbered before it. -/
def NewSession (u n : Nat) (c : Conn Table) : Prop :=
  ∃ (newer : List Nat) (row : SessionRow), Pending u n newer.length
      (fun id time => id = n ∨ (id < n ∧ (row.createdAt < time → id ∈ newer))) c ∧
    (c.Owns ⟨.authSessions, n⟩ ∧ c.view.get .authSessions n = some row) ∧
    row.userId = u ∧ row.revokedAt = none

theorem stable_newSession {u n : Nat} :
    ((capContract max).judge p).Stable (NewSession u n) :=
  .exists fun _ => .exists fun row => stable_pending.and <|
    (stable_ownSession (· = some row)).and <| (Judge.Stable.const _).and (Judge.Stable.const _)

theorem NewSession.frameClosed {u n : Nat} :
    FrameClosed (besides .authSessions) (NewSession u n) := by
  rintro c c' hf ⟨newer, row, hpending, ⟨hown, hrow⟩, hrest⟩
  have hframed : Framed (noInserts .authSessions) c c' :=
    hf.mono fun t _ _ _ _ hne heq => absurd heq hne
  refine ⟨newer, row, Pending.frameClosed c c' hframed hpending, ⟨hf.owns hown, ?_⟩, hrest⟩
  rw [hf.view_get (fun _ _ _ _ hne => hne rfl)]
  exact hrow

/-- **The new session of a login.** -/
theorem create_opens {u : Nat} (session : Repositories.AuthSessions.NewSession)
    (hu : session.userId = u) :
    Triple ((capContract max).judge p) p (Locked u) (Repositories.AuthSessions.create session)
      (NewSession u) := by
  -- the snapshot of the insert, in which the newer sessions are counted
  let later (s : Snap) : List Nat := ((s.store.rows .authSessions).filter fun e =>
    e.2.userId == session.userId && e.2.revokedAt.isNone && s.now < e.2.createdAt).map (·.1)
  let Counted (s : Snap) (c : Conn Table) : Prop :=
    Locked u c ∧ ∀ id time, OpenSince c.view u id time → s.now < time → id ∈ later s
  have hcounted : ∀ s, ((capContract max).judge p).Stable (Counted s) := by
    intro s c c' hr h
    exact ⟨stable_locked c c' hr h.1, fun id time hopen => h.2 id time (open_shrinks hr h.1.1 hopen)⟩
  have hquery : Triple ((capContract max).judge p) p (Locked u) (query : Db Snap) Counted := by
    refine Triple.query stable_locked hcounted fun c _ hc => ⟨hc, ?_⟩
    rintro id time ⟨r, hr, huser, hrev, rfl⟩ hlater
    refine List.mem_map.2 ⟨(id, r), List.mem_filter.2 ⟨Store.mem_rows.2 hr, ?_⟩, rfl⟩
    simp [huser, hu, hrev, hlater]
  refine hquery.bind fun s => ?_
  have hinsert : Triple ((capContract max).judge p) p (Counted s)
      ((Repositories.AuthSessions.createStmt s session).exec (dbError .uniqueViolation))
      (NewSession u) := by
    refine Triple.insert (hcounted s) (fun _ => stable_newSession) ?_
    intro tx srv hb hc _
    obtain ⟨⟨⟨tx', htx', ho⟩, hkept⟩, hlater⟩ := hc
    cases htx'
    let row := (Repositories.AuthSessions.createStmt s session).row srv.seq
    let written := tx.write (t := Table.authSessions) srv.seq .update (some row)
      ((Repositories.AuthSessions.createStmt s session).evs srv.seq)
    let after : Conn Table := ⟨some written, { srv with seq := srv.seq + 1 }⟩
    have hget : ∀ id : Nat, after.view.get Table.authSessions id =
        if id = srv.seq then some row else (tx.view srv.store).get Table.authSessions id :=
      fun id => Store.get_set _ Table.authSessions srv.seq id (some row)
    have hnew : after.view.get Table.authSessions srv.seq = some row := by
      rw [hget, if_pos rfl]
    have hown : written.Owns ⟨.authSessions, srv.seq⟩ :=
      tx.owns_write Table.authSessions srv.seq _ _ rfl
    -- nothing has been stored under the next number
    have hold : srv.store.get .authSessions srv.seq = none := by
      cases hstored : srv.store.get .authSessions srv.seq with
      | none => rfl
      | some r =>
        have hlt := hb.1.1.1.store_drawn .authSessions srv.seq r hstored srv.seq rfl
        exact absurd hlt (Nat.lt_irrefl _)
    have hof : after.RowRel .authSessions (SessionOf u srv.seq) := by
      intro id r' hr'
      by_cases hid : id = srv.seq
      · subst hid
        rw [hnew] at hr'
        cases hr'
        exact .inl ⟨hold, hu, rfl⟩
      · rw [hget, if_neg hid] at hr'
        exact .inr (hkept id r' hr')
    have hopen : ∀ id time, OpenSince after.view u id time →
        id = srv.seq ∨ (id < srv.seq ∧ (row.createdAt < time → id ∈ later s)) := by
      rintro id time ⟨r', hr', huser, hrev, htime⟩
      by_cases hid : id = srv.seq
      · exact .inl hid
      · rw [hget, if_neg hid] at hr'
        have hdrawn := (hb.1.1.2 tx rfl).view_drawn hb.1.1.1 (t := Table.authSessions) hr' id rfl
        exact .inr ⟨hdrawn, hlater id time ⟨r', hr', huser, hrev, htime⟩⟩
    have hcount : row.later = (later s).length := by
      show Repositories.AuthSessions.openLater s session.userId = (later s).length
      simp [later, Repositories.AuthSessions.openLater]
    refine ⟨later s, row, ⟨⟨⟨written, rfl, ho.write⟩, hof, hopen⟩, ⟨written, rfl, hown⟩, ?_⟩,
      ⟨⟨written, rfl, hown⟩, hnew⟩, hu, rfl⟩
    intro r' hr'
    have hsame : some row = some r' := hnew.symm.trans hr'
    cases hsame
    exact hcount
  refine hinsert.bind fun id => ?_
  refine Triple.bind (R := fun _ => NewSession u id) ?_ fun _ =>
    Triple.ret stable_newSession fun _ _ hc => hc
  exact Triple.within stable_newSession NewSession.frameClosed (references_within _ _ _)

/-- A login that has enforced the cap: the open sessions are among the kept ones, and its own is
one of them unless too many were newer. -/
def Enforced (max u n : Nat) (c : Conn Table) : Prop :=
  (∃ kept : List Nat, kept.length ≤ max ∧ Opening u n (fun id _ => id ∈ kept) c) ∧
    c.RowRel .authSessions (Usable max)

theorem stable_enforced {u n : Nat} : ((capContract max).judge p).Stable (Enforced max u n) :=
  (Judge.Stable.exists fun _ => (Judge.Stable.const _).and stable_opening).and stable_usable

/-- The statement that revokes all but the newest sessions of a user. -/
def enforceStmt (u max : Nat) : Update Table .authSessions :=
  Repositories.AuthSessions.revokeStmt fun s i row =>
    row.userId == u && !(Repositories.AuthSessions.keptSessions s u max).contains i

theorem enforceStmt_cond {u max : Nat} {s : Snap} {id : Nat} {row : SessionRow} :
    (enforceStmt u max).cond s id row = true ↔
      row.userId = u ∧ row.revokedAt = none ∧
        id ∉ Repositories.AuthSessions.keptSessions s u max := by
  simp only [enforceStmt, Repositories.AuthSessions.revokeStmt, Bool.and_eq_true, beq_iff_eq,
    Bool.not_eq_true', List.contains_eq_mem, decide_eq_false_iff_not, Option.isNone_iff_eq_none]
  tauto

/-- **The visit of one session**: afterwards it is closed, or one of those kept; the new session is
left alone if it is one of those. -/
theorem enforceStmt_visit {u n l : Nat} {s : Snap} {K : Nat → Prop} (id : Nat)
    (hnew : l < max → n ∈ Repositories.AuthSessions.keptSessions s u max) :
    Triple ((capContract max).judge p) p
      (fun c => Pending u n l (fun i _ => i ∈ Repositories.AuthSessions.keptSessions s u max ∨ K i)
        c ∧ c.RowRel .authSessions (Usable max))
      (Prog.perform (.update Table.authSessions id ((enforceStmt u max).cond s id)
        ((enforceStmt u max).set s) ((enforceStmt u max).evs s) ((enforceStmt u max).ok s id)) :
          Db _)
      fun _ c => Pending u n l (fun i _ =>
        i ∈ Repositories.AuthSessions.keptSessions s u max ∨ (K i ∧ i ≠ id)) c ∧
          c.RowRel .authSessions (Usable max) := by
  refine Triple.perform (stable_pending.and stable_usable)
    (fun _ => stable_pending.and stable_usable) fun c _ hc => ⟨by rintro ⟨⟩, ?_⟩
  obtain ⟨hpending, husable⟩ := hc
  -- the visit inserts nothing, so what is pending stays pending but for this row
  have hwithin : Act.Within (noInserts (T := Table) .authSessions) (.update .authSessions id
      ((enforceStmt u max).cond s id) ((enforceStmt u max).set s) ((enforceStmt u max).evs s)
      ((enforceStmt u max).ok s id)) := fun _ _ _ => rfl
  have hafter := Pending.frameClosed c _ (hwithin.framed p c) hpending
  obtain ⟨⟨⟨tx, htx, _⟩, hof, _⟩, _, hlater⟩ := hpending
  obtain ⟨otx, srv⟩ := c
  cases htx
  -- the row as the transaction sees it after the visit
  have hview := Act.view_update p (t := Table.authSessions) id ((enforceStmt u max).ok s id) tx srv
  refine ⟨⟨⟨hafter.1.1, hafter.1.2.1, fun i time hopen => ?_⟩, hafter.2⟩, fun i hnone r' hr' hlt => ?_⟩
  · have hbefore := hafter.1.2.2 i time hopen
    obtain ⟨r', hr', huser, hrev, _⟩ := hopen
    by_cases hi : i = id
    · -- the session just visited is still open: it is to be kept
      subst hi
      rw [hview, if_pos rfl] at hr'
      obtain ⟨r, hr, hnew'⟩ := Option.map_eq_some_iff.1 hr'
      refine .inl ?_
      by_contra hout
      by_cases hcond : (enforceStmt u max).cond s i r = true
      · rw [if_pos hcond] at hnew'
        subst hnew'
        cases hrev
      · rw [if_neg hcond] at hnew'
        subst hnew'
        exact hcond (enforceStmt_cond.2 ⟨huser, hrev, hout⟩)
    · exact hbefore.imp_right fun hK => ⟨hK, hi⟩
  · rw [Act.server_update] at hnone
    rw [hview] at hr'
    by_cases hi : i = id
    · subst hi
      rw [if_pos rfl] at hr'
      obtain ⟨r, hr, hnew'⟩ := Option.map_eq_some_iff.1 hr'
      by_cases hcond : (enforceStmt u max).cond s i r = true
      · -- it is the new session, which is to be kept
        rw [if_pos hcond] at hnew'
        subst hnew'
        obtain ⟨_, _, hout⟩ := enforceStmt_cond.1 hcond
        rcases hof i r hr with ⟨_, _, hin⟩ | ⟨r₀, hr₀, _⟩
        · subst hin
          have hl : r.later = l := hlater r hr
          refine absurd (hnew ?_) hout
          rw [← hl]
          exact hlt
        · rw [hnone] at hr₀
          cases hr₀
      · rw [if_neg hcond] at hnew'
        subst hnew'
        exact husable i hnone r hr hlt
    · rw [if_neg hi] at hr'
      exact husable i hnone r' hr' hlt

/-- **Once every session outside the kept ones has been visited, the open ones are among those
kept.** The others cannot add any in the meantime. -/
theorem enforceUserLimit_caps {u n : Nat} :
    Triple ((capContract max).judge p) p (NewSession u n)
      (Repositories.AuthSessions.enforceUserLimit u max) fun _ => Enforced max u n := by
  let kept (s : Snap) : List Nat := Repositories.AuthSessions.keptSessions s u max
  let selected (s : Snap) : List Nat := s.matching .authSessions ((enforceStmt u max).cond s)
  have hlen : ∀ s, (kept s).length ≤ max := by
    intro s
    simp only [kept, Repositories.AuthSessions.keptSessions, List.length_map, List.length_take]
    omega
  -- `I s l done`: an open session is kept, or it is still to be visited
  let I (s : Snap) (l : Nat) (done : List Nat) (c : Conn Table) : Prop :=
    Pending u n l (fun id _ => id ∈ kept s ∨ (id ∈ selected s ∧ id ∉ done)) c ∧
      c.RowRel .authSessions (Usable max)
  have hst : ∀ s l done, ((capContract max).judge p).Stable (I s l done) := fun s l done =>
    stable_pending.and stable_usable
  have hquery : Triple ((capContract max).judge p) p (NewSession u n) (query : Db Snap)
      fun s c => ∃ l, (l < max → n ∈ kept s) ∧ I s l [] c := by
    refine Triple.query stable_newSession (fun s => .exists fun l => (Judge.Stable.const _).and
      (hst s l [])) fun c _ hc => ?_
    obtain ⟨newer, row, hpending, ⟨_, hrow⟩, huser, hrev⟩ := hc
    have hopen : ∀ id time, OpenSince c.snapshot.store u id time →
        id ∈ kept c.snapshot ∨ id ∈ selected c.snapshot := by
      rintro id time ⟨r, hr, huser', hrev', _⟩
      by_cases hin : id ∈ kept c.snapshot
      · exact .inl hin
      · refine .inr (List.mem_map.2 ⟨(id, r), List.mem_filter.2 ⟨Store.mem_rows.2 hr, ?_⟩, rfl⟩)
        exact enforceStmt_cond.2 ⟨huser', hrev', hin⟩
    refine ⟨newer.length, fun hlt => mem_keptSessions hrow huser hrev hlt hpending.1.2.2,
      ⟨⟨hpending.1.1, hpending.1.2.1, fun id time hid => ?_⟩, hpending.2⟩, fun id hnone r hr _ => ?_⟩
    · exact (hopen id time hid).imp_right fun hm => ⟨hm, by simp⟩
    · -- the only new session is the one just inserted
      rcases hpending.1.2.1 id r hr with ⟨_, _, hid⟩ | ⟨r₀, hr₀, _⟩
      · subst hid
        rw [hrow] at hr
        cases hr
        exact hrev
      · rw [hnone] at hr₀
        cases hr₀
  have hvisit : ∀ s, Triple ((capContract max).judge p) p
      (fun c => ∃ l, (l < max → n ∈ kept s) ∧ I s l [] c) ((enforceStmt u max).execOn s : Db _)
      fun _ => Enforced max u n := by
    intro s
    refine Triple.ofExists fun l => Triple.assuming fun hnew => ?_
    refine (Triple.visit (I := I s l) (hst s l) (fun done id _ => ?_) []).post fun _ c hc => ?_
    · refine (enforceStmt_visit (K := fun i => i ∈ selected s ∧ i ∉ done) id hnew).post
        fun _ c hc => ⟨hc.1.mono fun i _ hi => hi.imp_right fun h => ?_, hc.2⟩
      exact ⟨h.1.1, by simp [h.1.2, h.2]⟩
    · refine ⟨⟨kept s, hlen s, hc.1.1.mono fun id _ hid => ?_⟩, hc.2⟩
      rcases hid with hin | ⟨hm, hdone⟩
      · exact hin
      · exact absurd hm (by simpa using hdone)
  have hexec : Triple ((capContract max).judge p) p (NewSession u n) ((enforceStmt u max).exec : Db _)
      fun _ => Enforced max u n := hquery.bind hvisit
  exact hexec.bind fun _ => Triple.ret stable_enforced fun _ _ hc => hc

/-- Any change that neither inserts a session nor revokes one. -/
def onlyDeletes : Change Table := fun t _ old new _ => t = .authSessions → old.isSome ∧ new = none

theorem Enforced.frameClosed {u n : Nat} : FrameClosed onlyDeletes (Enforced max u n) := by
  rintro c c' hf ⟨⟨kept, hlen, hopening⟩, husable⟩
  have hframed : Framed (noInserts .authSessions) c c' := hf.mono fun t _ _ _ _ h heq => (h heq).1
  refine ⟨⟨kept, hlen, Opening.frameClosed c c' hframed hopening⟩, RowRel.framed ?_ husable hf⟩
  intro id old v v' evs hchange _ _ _ r hr
  rw [(hchange rfl).2] at hr
  cases hr

/-- Statements between the cap and the commit. -/
theorem besideCap {α : Type} {m : Db α} {u n : Nat} (hm : m.All (Act.Within onlyDeletes)) :
    Triple ((capContract max).judge p) p (Enforced max u n) m fun _ => Enforced max u n :=
  Triple.within stable_enforced Enforced.frameClosed hm

theorem free_onlyDeletes {t : Table} (h : t ≠ .authSessions) : Free onlyDeletes t :=
  fun _ _ _ _ e => absurd e h

theorem prune_onlyDeletes : Repositories.AuthSessions.prune.All (Act.Within onlyDeletes) := by
  refine .bind (Prog.All.delete (fun _ _ _ _ _ => ⟨rfl, rfl⟩) trivial) fun _ => ?_
  refine .bind (.forEach fun _ => .bind (delete_within _ (free_onlyDeletes (by decide)).edits)
    fun _ => .bind (delete_within _ (free_onlyDeletes (by decide)).edits) fun _ => .ret) fun _ => ?_
  exact .bind (delete_within _ (free_onlyDeletes (by decide)).edits) fun _ => .ret

theorem ordinary_noSessions : Ordinary (noInserts .authSessions) where
  auditLogs := free_noInserts (by decide)
  loginAttempts := free_noInserts (by decide)
  settings _ _ _ := free_noInserts (by decide) _ _ _ _
  reauthentications _ _ _ _ := free_noInserts (by decide) _ _ _ _
  passkeys _ _ _ := free_noInserts (by decide) _ _ _ _
  stepUpTokens := free_noInserts (by decide)
  moduleUnlocks := free_noInserts (by decide)
  sessions := (alters_noInserts _).edits
  users _ _ _ := free_noInserts (by decide) _ _ _ _
  passwords _ _ _ := free_noInserts (by decide) _ _ _ _
  userRoles := (free_noInserts (by decide)).edits
  rolePermissions := (free_noInserts (by decide)).edits

/-- **A login keeps the cap.** -/
theorem createLoginSession_caps (persistent : Bool) (keys : LoginContext)
    (user : Repositories.Users.Found) (checkedAt : Nat) (completed : Option (Nat × Factor)) :
    Triple ((capContract config.maxSessionsPerUser).judge p) p
      (fun c => c.RowRel .authSessions SessionKept ∧ KnownUser user c)
      (Services.Auth.createLoginSession env config persistent keys user checkedAt completed)
      fun _ c => c.RowRel .authSessions SessionKept := by
  have hφ := ordinary_noSessions
  have hcarried : Carried ((capContract config.maxSessionsPerUser).judge p)
      (noInserts .authSessions) fun c => c.RowRel .authSessions SessionKept := carried_kept
  have haudit : Free onlyDeletes .auditLogs := free_onlyDeletes (by decide)
  have hknown : ∀ {α : Type} {m : Db α}, m.All (Act.Within (noInserts .authSessions)) →
      Triple ((capContract config.maxSessionsPerUser).judge p) p
        (fun c => c.RowRel .authSessions SessionKept ∧ KnownUser user c) m
        fun _ c => c.RowRel .authSessions SessionKept ∧ KnownUser user c := by
    intro α m hm
    refine Triple.of_all (hcarried.stable.and (stable_knownUser user)) (fun a ha c hb hc => ?_)
      hm
    refine ⟨fun hcommit => ?_, hcarried.step (.inl ha.steps) hc.1, hc.2.step user a hb⟩
    subst hcommit
    cases ha
  refine (hknown utcNow_within).bind fun now => ?_
  -- the transaction
  have hbegin : Triple ((capContract config.maxSessionsPerUser).judge p) p
      (fun c => c.RowRel .authSessions SessionKept ∧ KnownUser user c) (beginTx : Db Unit)
      fun _ c => (c.RowRel .authSessions SessionKept ∧ KnownUser user c) ∧ c.tx.isSome := by
    refine (Triple.perform (a := .begin) (Q := fun _ c => (c.RowRel .authSessions SessionKept ∧
      KnownUser user c) ∧ c.tx.isSome) (hcarried.stable.and (stable_knownUser user))
      (fun _ => (hcarried.stable.and (stable_knownUser user)).and
        (Contract.stable_tx fun otx => otx.isSome)) fun c hb hc => ⟨by rintro ⟨⟩, ?_⟩)
    exact ⟨⟨hcarried.clean _ (.inr ⟨_, rfl⟩), hc.2⟩, rfl⟩
  refine hbegin.bind fun _ => ?_
  refine (updateLastLogin_locks user).bind fun _ => ?_
  refine (besideLocked (Repositories.AuthSessions.clearLoginFailures_within hφ _)).bind fun _ => ?_
  refine (besideLocked (Repositories.AuthSessions.clearLoginFailures_within hφ _)).bind fun _ => ?_
  refine Triple.bind (create_opens _ rfl) fun sessionId => ?_
  refine enforceUserLimit_caps.bind fun revoked => ?_
  refine (besideCap (Services.Auth.recordSessionRevocation_within haudit _ _ _ _)).bind
    fun _ => ?_
  refine (besideCap prune_onlyDeletes).bind fun _ => ?_
  refine (besideCap (Repositories.AuditLogs.record_within haudit _ _ _ _ _)).bind
    fun _ => ?_
  have hcommit : Triple ((capContract config.maxSessionsPerUser).judge p) p
      (Enforced config.maxSessionsPerUser user.id sessionId) (commitTx : Db Unit)
      fun _ c => c.RowRel .authSessions SessionKept := by
    refine (Triple.commitTx Contract.private_judge stable_enforced ?_).post fun _ c htx => hcarried.clean c (.inl htx)
    rintro c hb ⟨⟨kept, hlen, hopening⟩, husable⟩
    refine cap_guar hb hopening.1 hopening.2.1 husable ⟨kept, hlen, fun id ⟨time, hopen⟩ => ?_⟩
    exact hopening.2.2 id time hopen
  refine hcommit.bind fun _ => ?_
  exact Triple.speaks hcarried ((within_steps (.bind
    (Repositories.Users.roleNamesByUser_within _) fun _ => .ret)).mono fun _ ha => .inl ha)

/-- **Every request keeps the cap.** -/
theorem requests_capped (env : External) (config : AuthSessionConfig) {s₀ : Server Table}
    (h₀ : s₀.Wf) (hnone : s₀.store.rows .authSessions = []) :
    (capContract config.maxSessionsPerUser).Kept (serve env config) s₀ fun _ _ _ _ => True where
  base _ h p := ⟨h.wf h₀ p, usersKept h₀ h p⟩
  init u := by
    refine ⟨[], Nat.zero_le _, fun id ⟨_, row, hrow, _⟩ => ?_⟩
    rw [Store.get_of_rows_nil hnone id] at hrow
    cases hrow
  advance _ _ _ h := h
  prog p req := by
    have L : Logins env config ((capContract config.maxSessionsPerUser).judge p) p
        (noInserts .authSessions) (fun c => c.RowRel .authSessions SessionKept) KnownUser :=
      { carried := carried_kept
        stable := stable_knownUser
        step := fun found a _ c hb _ h => h.step found a hb
        learn := fun c _ _ found hfound => by
          have hrow : c.server.store.get .users found.id = some found.row := hfound.2
          unfold KnownUser
          rw [hrow]
          rfl
        opens := fun _ _ _ _ _ _ => createLoginSession_caps _ _ _ _ _ }
    have hfree : ∀ t ∈ subjectTables, Free (noInserts .authSessions) t := by
      intro t ht
      refine free_noInserts ?_
      rintro rfl
      revert ht
      decide
    have hchallenges : Free (noInserts (T := Table) .authSessions) .authMfaChallenges :=
      free_noInserts (by decide)
    refine (L.serve ordinary_noSessions req (Request.permitted_of_free hfree hchallenges.alters
      fun _ => hchallenges) (fun _ _ => trivial) fun _ _ => trivial).conseq
        (fun c hc => L.carried.clean c (.inl hc)) fun _ _ _ => trivial

end Cap

/-! ## The main theorems

The cap in every committed state, and the condition under which the new session is not among those
that its own login evicts.
-/

/-- **The session cap.** Starting without sessions, in every interleaving of all requests, every
user has at most `max_sessions_per_user` unrevoked sessions in every committed state. -/
theorem sessionCap (env : External) (config : AuthSessionConfig) {s₀ : Server Table} (h₀ : s₀.Wf)
    (hnone : s₀.store.rows .authSessions = []) {C : Db.Config}
    (hC : Reachable (serve env config) s₀ C) (userId : Nat) :
    (openSessions C.server.store userId).length ≤ config.maxSessionsPerUser :=
  ((Contract.sound (requests_capped env config h₀ hnone) hC).1 userId).length_le

/-- The sample service with one session for each user. -/
def oneSession : AuthSessionConfig := { Sample.config with maxSessionsPerUser := 1 }

/-- One login of `helper` after another. -/
def twoLogins : Db.Config :=
  (Stage.after (serve Sample.external oneSession) Sample.server
    [.start (Sample.login "helper"), .run 0 100, .wait 1, .start (Sample.login "helper"),
      .run 1 100]).config

theorem sessionCap_sample :
    openSessions twoLogins.server.store 11 = [22] ∧
      (openSessions twoLogins.server.store 11).length ≤ 1 :=
  ⟨by decide +kernel, sessionCap Sample.external oneSession Sample.server_wf (by decide)
    (Stage.reachable_after _ _ _) 11⟩

/-- **A successful login is usable** unless `max_sessions_per_user` open sessions of the user are
newer: in every interleaving of all requests, a session that a transaction commits is unrevoked
then, if fewer than that were open when it was inserted whose transactions had started later. -/
theorem newSession_usable (env : External) (config : AuthSessionConfig) {s₀ : Server Table}
    (h₀ : s₀.Wf) (hnone : s₀.store.rows .authSessions = []) {C C' : Db.Config}
    (hC : Reachable (serve env config) s₀ C) (hstep : Step (serve env config) (fun _ _ => True) C C')
    (n : Nat) (session : SessionRow) (hold : C.server.store.get .authSessions n = none)
    (hnew : C'.server.store.get .authSessions n = some session)
    (hlater : session.later < config.maxSessionsPerUser) : session.revokedAt = none := by
  rcases Contract.guar_of_step (requests_capped env config h₀ hnone) hC hstep with
    ⟨hstore, _⟩ | ⟨p, tx, _, hserver, hcommits, _⟩
  · rw [hstore, hold] at hnew
    cases hnew
  · rw [hserver] at hnew
    exact hcommits.2.2.1 n hold session hnew hlater

/-- Two logins of `helper` whose transactions overlap; the one that started later goes on first. -/
def overlappingSessions (n m : Nat) : Stage Table ApiError Reply Request :=
  Stage.after (serve Sample.external oneSession) Sample.server
    [.start (Sample.login "helper"), .start (Sample.login "helper"), .run 0 7, .wait 1, .run 1 n,
      .run 0 m]

theorem overlappingSessions_reachable (n m : Nat) : Reachable (serve Sample.external oneSession)
    Sample.server (overlappingSessions n m).config := Stage.reachable_after _ _ _

/-- The one that goes on first keeps its session. -/
theorem newSession_usable_sample :
    ∃ session : SessionRow, ((overlappingSessions 21 0).next 1).server.store.get .authSessions
      (20 : Nat) = some session ∧ session.revokedAt = none := by
  have hold : (overlappingSessions 21 0).server.store.get .authSessions (20 : Nat) = none := by
    decide +kernel
  have hafter : (((overlappingSessions 21 0).next 1).server.store.get .authSessions (20 : Nat)).any
      (fun session : SessionRow => decide (session.later < 1)) = true := by
    decide +kernel
  obtain ⟨session, hnew, hlater⟩ := (Option.any_eq_true _ _).1 hafter
  have hne : (overlappingSessions 21 0).next 1 ≠ overlappingSessions 21 0 := by
    intro h
    rw [h, hold] at hnew
    cases hnew
  have hstep : Step (serve Sample.external oneSession) (fun _ _ => True)
      (overlappingSessions 21 0).config ((overlappingSessions 21 0).next 1).config :=
    Stage.step_next _ _ 1 hne
  refine ⟨session, hnew, ?_⟩
  refine newSession_usable Sample.external oneSession Sample.server_wf (by decide)
    (overlappingSessions_reachable 21 0) hstep 20 session ?_ ?_ (of_decide_eq_true hlater)
  · rw [Stage.server_config]
    exact hold
  · rw [Stage.server_config]
    exact hnew

/-- The other one commits a session that it has itself revoked. -/
theorem newSession_revoked :
    ∃ C C' : Db.Config, Reachable (serve Sample.external oneSession) Sample.server C ∧
      Step (serve Sample.external oneSession) (fun _ _ => True) C C' ∧
      ∃ (n : Nat) (session : SessionRow), C.server.store.get .authSessions n = none ∧
        C'.server.store.get .authSessions n = some session ∧ session.revokedAt ≠ none := by
  have hold : (overlappingSessions 100 19).server.store.get .authSessions (22 : Nat) = none := by
    decide +kernel
  have hafter : (((overlappingSessions 100 19).next 0).server.store.get .authSessions
      (22 : Nat)).any (fun session : SessionRow => session.revokedAt.isSome) = true := by
    decide +kernel
  obtain ⟨session, hnew, hrevoked⟩ := (Option.any_eq_true _ _).1 hafter
  have hne : (overlappingSessions 100 19).next 0 ≠ overlappingSessions 100 19 := by
    intro h
    rw [h, hold] at hnew
    cases hnew
  have hstep : Step (serve Sample.external oneSession) (fun _ _ => True)
      (overlappingSessions 100 19).config ((overlappingSessions 100 19).next 0).config :=
    Stage.step_next _ _ 0 hne
  refine ⟨_, _, overlappingSessions_reachable 100 19, hstep, 22, session, ?_, ?_, fun hnone => ?_⟩
  · rw [Stage.server_config]
    exact hold
  · rw [Stage.server_config]
    exact hnew
  · rw [hnone] at hrevoked
    cases hrevoked

end ArcAdmin
