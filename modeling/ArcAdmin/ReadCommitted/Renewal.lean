import Mathlib.Data.Set.Insert
import ArcAdmin.ReadCommitted.Replace

/-!
# Sets of rows that several transactions renew at once

A transaction that replaces a set of rows deletes what its snapshot holds of the set and inserts
the new rows. Transactions that do so at the same time leave a mixture. What can be said of it is
that rows which were committed together are deleted together: of a set that is stored, what was
committed since any earlier snapshot is made of whole requests. So a property that unions keep
survives every mixture.

The journal tells the age of a row: the insertion of a row leaves an event that names it, and a
snapshot knows how much of the journal had been written when it was taken.

* **`Renewal`** — a table whose rows have an identity, divided into sets, and a property of sets;
* **`Renewal.contract`** — what a committing transaction may do to the sets;
* **`Triple.sweep`**, **`Triple.refill`** — the `DELETE` and the `INSERT`s of a replacement;
* **`Renewal.good`** — the stored sets have the property in every reachable configuration.
-/

namespace ReadCommitted

open Schema (Id Row Ev serialNo clash Allowed)

variable {T : Type} [Schema T] {ε α ρ Req : Type}

/-! ## Events since a snapshot

A moment is given by how much of the journal had been written. What has happened to a row since
then are the entries about it that come after.
-/

/-- The events about the row at `k` that have been committed since the journal had length `a`. -/
def Server.since (s : Server T) (a : Nat) (k : Key T) : List (Ev T) := history (s.log.drop a) k

@[simp] theorem Server.since_advance (s : Server T) (a n d : Nat) (k : Key T) :
    ({ s with seq := s.seq + n, clock := s.clock + d } : Server T).since a k = s.since a k := rfl

/-- Nothing has been committed since now. -/
theorem Server.since_now (s : Server T) (k : Key T) : s.since s.log.length k = [] := by
  unfold Server.since
  rw [List.drop_length]
  rfl

/-- A commit adds the events of its transaction. -/
theorem Server.since_commit {s : Server T} {a : Nat} (ha : a ≤ s.log.length) (p : Nat) (tx : Tx T)
    (k : Key T) : (s.commit p tx).since a k = s.since a k ++ noted tx.notes k := by
  unfold Server.since
  rw [Server.commit_log, List.drop_append_of_le_length ha]
  simp [history, noted, List.filter_map, Function.comp_def]

/-- What has happened since a later moment has happened since an earlier one. -/
theorem Server.since_ne_nil {s : Server T} {a b : Nat} (hab : a ≤ b) {k : Key T}
    (h : s.since b k ≠ []) : s.since a k ≠ [] := by
  obtain ⟨ev, hev⟩ := List.exists_mem_of_ne_nil _ h
  obtain ⟨e, he, hk⟩ := mem_history.1 hev
  have hmem : e ∈ s.log.drop a := List.drop_subset_drop_left _ hab he
  exact List.ne_nil_of_mem (mem_history.2 ⟨e, hmem, hk⟩)

/-! ## Acts on other tables

A request does more than replace one set: it checks, writes audit records, deletes sessions. Such
acts leave the table and its history as they are.
-/

/-- **Nothing has happened to a table**, nor to what the connection has to say about it. -/
structure Aside (t : T) (c c' : Conn T) : Prop extends SameTable t c c' where
  log : c'.server.log = c.server.log
  seq_le : c.server.seq ≤ c'.server.seq
  opened : c.tx.isSome = c'.tx.isSome
  noted : ∀ id : Id t, ReadCommitted.noted c'.notes ⟨t, id⟩ = ReadCommitted.noted c.notes ⟨t, id⟩

/-- Nothing happens where an event is noted that is about no row. -/
theorem Aside.noting (t : T) (c : Conn T) (e : Ev T) : Aside t c (c.noted e) where
  toSameTable := .noted t c e
  log := rfl
  seq_le := le_rfl
  opened := (Conn.isSome_noted c e).symm
  noted id := by
    obtain ⟨otx, s⟩ := c
    cases otx with
    | none => rfl
    | some tx =>
      show ReadCommitted.noted (tx.notes ++ [(none, e)]) _ = ReadCommitted.noted tx.notes _
      simp [noted_append, ReadCommitted.noted]

theorem Act.Outside.aside {t : T} {a : Act T} (h : a.Outside t) (p : Nat) (c : Conn T) :
    Aside t c (a.step p c).2 := by
  rcases h.cases with ⟨e, rfl⟩ | hwithin
  · rw [Act.step_note]
    exact .noting t c e
  have hframed := hwithin.framed p c
  refine ⟨h.sameTable p c, hframed.log, ?_, hframed.isSome, fun id => ?_⟩
  · rcases a.step_server p c with ⟨d, hserver⟩ | ⟨tx, _, hcommit, _⟩
    · rw [hserver]
      exact Nat.le_add_right _ _
    · rw [hcommit] at h
      cases h
  · rcases hframed.tx with ⟨hnone, hnone'⟩ | ⟨tx, tx', htx, htx', _, _, ns, hns, hall⟩
    · simp only [Conn.notes, hnone, hnone']
    · -- the events of such an act are about rows of other tables
      have hother : ReadCommitted.noted ns (⟨t, id⟩ : Key T) = [] := by
        unfold ReadCommitted.noted
        rw [List.map_eq_nil_iff, List.filter_eq_nil_iff]
        intro n hn heq
        obtain ⟨k, hk, old, new, evs, hne, _⟩ := hall n hn
        have hkey : k = ⟨t, id⟩ := Option.some.inj (hk.symm.trans (by simpa using heq))
        exact hne (by rw [hkey])
      simp only [Conn.notes, htx, htx', hns, noted_append, hother, List.append_nil]

/-- **Programs outside a table** keep what is known of its rows, its locks and its events. -/
theorem Triple.aside {J : Judge T} {p : Nat} {t : T} {P : Conn T → Prop} {m : Prog T ε α}
    (hst : J.Stable P) (hP : ∀ c c', Aside t c c' → P c → P c') (hm : m.All (Act.Outside t)) :
    Triple J p P m fun _ => P :=
  Triple.of_all hst (fun _ ha c _ hc =>
    ⟨fun h => absurd h ha.ne_commit, hP c _ (ha.aside p c) hc⟩) hm

/-- The transaction has not inserted the row under `id`: what it sees there is committed. -/
structure Conn.Spares (c : Conn T) (t : T) (id : Id t) : Prop where
  noted : ReadCommitted.noted c.notes ⟨t, id⟩ = []
  view : ∀ r, c.view.get t id = some r → c.server.store.get t id = some r

/-! ## Renewals

A replacement is a `DELETE` of what a snapshot holds of the set, and `INSERT`s. The property is
assumed to be kept by unions, since two replacements that overlap leave the union of what they
have inserted.
-/

/-- **A table of tuples that are replaced in sets.** A tuple has a number, which is drawn when it is
inserted, and the insertion leaves the event `born`. `part` is the set that a tuple belongs to, and
`Good` a property of sets that unions keep. -/
structure Renewal (t : T) (κ : Type) where
  part : Id t → κ
  num : Row t → Nat
  born : Row t → Ev T
  num_born : ∀ r r', born r = born r' → num r = num r'
  Good : Set (Id t) → Prop
  empty : Good ∅
  union : ∀ A B, Good A → Good B → Good (A ∪ B)

namespace Renewal

variable {t : T} {κ : Type} (R : Renewal t κ) (s₀ : Server T)

/-- The set `k` in a store. -/
def stored (s : Store T) (k : κ) : Set (Id t) := {id | R.part id = k ∧ (s.get t id).isSome}

/-- What has been committed of the set `k` since the journal had length `a`, and is still there. -/
def storedSince (s : Server T) (a : Nat) (k : κ) : Set (Id t) :=
  {id | id ∈ R.stored s.store k ∧ s.since a ⟨t, id⟩ ≠ []}

/-- What the open transaction has inserted into the set `k`. -/
def inserted (c : Conn T) (k : κ) : Set (Id t) :=
  {id | R.part id = k ∧ noted c.notes ⟨t, id⟩ ≠ []}

/-- **Every stored tuple is as old as the server or is told of in the journal**, and the numbers
that the journal names have been drawn. -/
structure Tallied (s : Server T) : Prop where
  log_le : s₀.log.length ≤ s.log.length
  seq_le : s₀.seq ≤ s.seq
  told : ∀ id r, s.store.get t id = some r →
    R.num r < s₀.seq ∨ R.born r ∈ s.since s₀.log.length ⟨t, id⟩
  drawn : ∀ id r, R.born r ∈ s.since s₀.log.length ⟨t, id⟩ → R.num r < s.seq

/-- The transaction has inserted the tuple `r`, which has never been committed before. -/
structure Inserts (c : Conn T) (id : Id t) (r : Row t) : Prop where
  noted : ReadCommitted.noted c.notes ⟨t, id⟩ = [R.born r]
  view : c.view.get t id = some r
  new : s₀.seq ≤ R.num r
  drawn : R.num r < c.server.seq
  untold : R.born r ∉ c.server.since s₀.log.length ⟨t, id⟩

/-- **What a transaction has made of the set `k`**: nothing, or it has deleted what some earlier
snapshot held of it and inserted a good set. -/
def Renewed (c : Conn T) (k : κ) : Prop :=
  (∀ id, R.part id = k → c.view.get t id = c.server.store.get t id ∧
      noted c.notes ⟨t, id⟩ = []) ∨
    ∃ a ≤ c.server.log.length, R.Good (R.storedSince c.server a k) ∧ R.Good (R.inserted c k) ∧
      R.stored c.view k = R.inserted c k ∪ R.storedSince c.server a k

/-- What a transaction owes when it commits. -/
structure Owes (c : Conn T) : Prop where
  row : ∀ id, c.Spares t id ∨ ∃ r, R.Inserts s₀ c id r
  renewed : ∀ k, R.Renewed c k

/-- The invariant of the committed state. -/
structure Inv (s : Server T) : Prop where
  tallied : R.Tallied s₀ s
  good : ∀ k, R.Good (R.stored s.store k)

/-- **The contract of a renewal.** `B` is what is known of every connection anyway. -/
def contract (B : Nat → Conn T → Prop) : Contract T where
  base := B
  inv := R.Inv s₀
  guar _ := R.Owes s₀

variable {R s₀} {p : Nat} {tx : Tx T} {s : Server T}

/-! ### Commits

The induction over the run: a commit that meets its obligations keeps the journal complete and
every set good.
-/

theorem Inv.advance (h : R.Inv s₀ s) (n d : Nat) :
    R.Inv s₀ { s with seq := s.seq + n, clock := s.clock + d } where
  tallied :=
    { log_le := h.tallied.log_le
      seq_le := Nat.le_trans h.tallied.seq_le (Nat.le_add_right _ _)
      told := h.tallied.told
      drawn := fun id r hr => Nat.lt_of_lt_of_le (h.tallied.drawn id r hr) (Nat.le_add_right _ _) }
  good := h.good

/-- **What is stored under a key after a commit** is a tuple that was stored before, of which
nothing new is told, or a new one. -/
theorem Owes.cases (h : R.Owes s₀ ⟨some tx, s⟩) (p : Nat) (id : Id t) :
    (noted tx.notes ⟨t, id⟩ = [] ∧
        ∀ r, (s.commit p tx).store.get t id = some r → s.store.get t id = some r) ∨
      ∃ r, noted tx.notes ⟨t, id⟩ = [R.born r] ∧ (s.commit p tx).store.get t id = some r ∧
        R.Inserts s₀ ⟨some tx, s⟩ id r := by
  rcases h.row id with hspares | ⟨r, hr⟩
  · exact .inl ⟨hspares.noted, hspares.view⟩
  · exact .inr ⟨r, hr.noted, hr.view, hr⟩

/-- A commit that meets its obligations keeps the journal complete. -/
theorem Tallied.commit (h : R.Tallied s₀ s) (ho : R.Owes s₀ ⟨some tx, s⟩) (p : Nat) :
    R.Tallied s₀ (s.commit p tx) where
  log_le := by
    rw [Server.commit_log, List.length_append]
    exact Nat.le_trans h.log_le (Nat.le_add_right _ _)
  seq_le := h.seq_le
  told id r hr := by
    rw [Server.since_commit h.log_le]
    rcases ho.cases p id with ⟨_, hkept⟩ | ⟨r', hnoted, hr', _⟩
    · exact (h.told id r (hkept r hr)).imp_right (List.mem_append_left _)
    · rw [hr'] at hr
      cases hr
      rw [hnoted]
      exact .inr (List.mem_append_right _ (List.mem_singleton_self _))
  drawn id r hr := by
    rw [Server.since_commit h.log_le] at hr
    rcases List.mem_append.1 hr with hold | hnew
    · exact h.drawn id r hold
    · rcases ho.cases p id with ⟨hnone, _⟩ | ⟨r', hnoted, _, hins⟩
      · rw [hnone] at hnew
        cases hnew
      · rw [hnoted, List.mem_singleton] at hnew
        rw [R.num_born r r' hnew]
        exact hins.drawn

/-- **Commits keep what has been committed of a set since an earlier moment good.** Two snapshots
see nested parts of what is still stored, so one of them decides. -/
theorem Owes.good_storedSince (h : R.Owes s₀ ⟨some tx, s⟩) (p : Nat) {a : Nat}
    (ha : a ≤ s.log.length) {k : κ} (hgood : R.Good (R.storedSince s a k)) :
    R.Good (R.storedSince (s.commit p tx) a k) := by
  rcases h.renewed k with hsame | ⟨b, hb, hsince, hins, hview⟩
  · -- the set is as it was: the commit adds no record to it
    have heq : R.storedSince (s.commit p tx) a k = R.storedSince s a k := by
      ext id
      show ((R.part id = k ∧ _) ∧ _) ↔ (R.part id = k ∧ _) ∧ _
      rw [and_assoc, and_assoc]
      refine and_congr_right fun hk => ?_
      obtain ⟨hget, hnoted⟩ := hsame id hk
      have hstore : (s.commit p tx).store.get t id = s.store.get t id := hget
      have hnone : noted tx.notes ⟨t, id⟩ = [] := hnoted
      rw [hstore, Server.since_commit ha, hnone, List.append_nil]
    rw [heq]
    exact hgood
  · -- the set was renewed: its own rows, and those younger than both instants
    have heq : R.storedSince (s.commit p tx) a k =
        R.inserted ⟨some tx, s⟩ k ∪ R.storedSince s (max a b) k := by
      have hstored : R.stored (s.commit p tx).store k =
          R.inserted ⟨some tx, s⟩ k ∪ R.storedSince s b k := hview
      ext id
      have hmem := Set.ext_iff.1 hstored id
      show (id ∈ R.stored (s.commit p tx).store k ∧ _) ↔ _
      rw [hmem, Server.since_commit ha]
      constructor
      · rintro ⟨hins | ⟨hs, hb'⟩, hsome⟩
        · exact .inl hins
        · by_cases hnoted : noted tx.notes (⟨t, id⟩ : Key T) = []
          · rw [hnoted, List.append_nil] at hsome
            refine .inr ⟨hs, ?_⟩
            rcases Nat.le_total a b with hab | hba
            · rw [Nat.max_eq_right hab]
              exact hb'
            · rw [Nat.max_eq_left hba]
              exact hsome
          · exact .inl ⟨hs.1, hnoted⟩
      · rintro (hins | ⟨hs, hmax⟩)
        · exact ⟨.inl hins, List.append_ne_nil_of_right_ne_nil _ hins.2⟩
        · refine ⟨.inr ⟨hs, Server.since_ne_nil (Nat.le_max_right a b) hmax⟩, ?_⟩
          exact List.append_ne_nil_of_left_ne_nil
            (Server.since_ne_nil (Nat.le_max_left a b) hmax) _
    rw [heq]
    refine R.union _ _ hins ?_
    rcases Nat.le_total a b with hab | hba
    · rw [Nat.max_eq_right hab]
      exact hsince
    · rw [Nat.max_eq_left hba]
      exact hgood

/-- **Commits that meet their obligations keep every set good.** -/
theorem Inv.commit (h : R.Inv s₀ s) (ho : R.Owes s₀ ⟨some tx, s⟩) (p : Nat) :
    R.Inv s₀ (s.commit p tx) where
  tallied := h.tallied.commit ho p
  good k := by
    rcases ho.renewed k with hsame | ⟨a, _, hsince, hins, hview⟩
    · have heq : R.stored (s.commit p tx).store k = R.stored s.store k := by
        ext id
        refine and_congr_right fun hk => ?_
        have hget : (s.commit p tx).store.get t id = s.store.get t id := (hsame id hk).1
        rw [hget]
      rw [heq]
      exact h.good k
    · have hstored : R.stored (s.commit p tx).store k =
          R.inserted ⟨some tx, s⟩ k ∪ R.storedSince s a k := hview
      rw [hstored]
      exact R.union _ _ hins hsince

/-! ### What a replacement knows

The assertions of the proof of one replacement: before its `DELETE`, within it, and between its
`INSERT`s.
-/

/-- **The `DELETE` of a replacement is on its way.** It has taken the snapshot `s`, and has visited
the rows `visited`. -/
structure Sweeping (R : Renewal t κ) (s₀ : Server T) (s : Snapshot T) (k : κ)
    (visited : List (Id t)) (c : Conn T) : Prop where
  opened : c.tx.isSome
  asOf_le : s.asOf ≤ c.server.log.length
  /-- The journal tells of every tuple of the snapshot. -/
  told : ∀ id r, s.store.get t id = some r →
    R.num r < s₀.seq ∨ R.born r ∈ c.server.since s₀.log.length ⟨t, id⟩
  /-- A tuple of the snapshot that is still stored has been stored all the time. -/
  same : ∀ id r, s.store.get t id = some r → c.server.store.get t id = some r →
    c.server.since s.asOf ⟨t, id⟩ = []
  /-- What is stored of the set is in the snapshot, or younger. -/
  known : ∀ id r, R.part id = k → c.server.store.get t id = some r →
    c.server.since s.asOf ⟨t, id⟩ ≠ [] ∨ s.store.get t id = some r
  owned : ∀ id, c.Owns ⟨t, id⟩ → R.part id = k ∧ c.view.get t id = none ∧
    (c.server.store.get t id ≠ none → c.server.since s.asOf ⟨t, id⟩ = [])
  visited : ∀ id ∈ visited, ∀ r, s.store.get t id = some r → c.server.store.get t id = some r →
    c.Owns ⟨t, id⟩
  unnoted : ∀ id : Id t, noted c.notes ⟨t, id⟩ = []
  good : R.Good (R.storedSince c.server s.asOf k)

/-- **The set is swept, and the rows `done` have been inserted.** What is left of the set, besides
them, is what has been committed since the journal had length `a`. -/
structure Refilling (R : Renewal t κ) (s₀ : Server T) (a : Nat) (k : κ) (done : Set (Id t))
    (c : Conn T) : Prop where
  asOf_le : a ≤ c.server.log.length
  left : ∀ id, R.part id = k → c.server.store.get t id ≠ none →
    c.server.since a ⟨t, id⟩ ≠ [] ∨ c.Owns ⟨t, id⟩
  owned : ∀ id, c.Owns ⟨t, id⟩ → R.part id = k ∧
    (c.server.store.get t id ≠ none → c.server.since a ⟨t, id⟩ = []) ∧
    (id ∉ done → c.view.get t id = none)
  inserted : ∀ id ∈ done, c.Owns ⟨t, id⟩ ∧ ∃ r, R.Inserts s₀ c id r
  unnoted : ∀ id, id ∉ done → noted c.notes (⟨t, id⟩ : Key T) = []
  good : R.Good (R.storedSince c.server a k)

/-- A transaction is open, nothing of the table has been locked, and nothing is to be told of it. -/
structure Unlocked (t : T) (c : Conn T) : Prop where
  opened : c.tx.isSome
  free : ∀ id : Id t, ¬c.Owns ⟨t, id⟩
  unnoted : ∀ id : Id t, noted c.notes ⟨t, id⟩ = []

section Stable

variable {B : Nat → Conn T → Prop} {c c' : Conn T}

theorem contract_wf (hB : ∀ p c, B p c → c.Wf) : (R.contract s₀ B).WellFormed := hB

/-- **What interference means for one key.** Time passes, or somebody else commits; whoever owns the
row is not concerned. -/
theorem rely_cases (hB : ∀ p c, B p c → c.Wf) (hr : ((R.contract s₀ B).judge p).rely c c') :
    (c'.tx = c.tx ∧ c'.server.store = c.server.store ∧ c'.server.log = c.server.log ∧
        c.server.seq ≤ c'.server.seq) ∨
      ∃ q tx, R.Owes s₀ ⟨some tx, c.server⟩ ∧ c' = ⟨c.tx, c.server.commit q tx⟩ ∧
        ∀ id, c.Owns ⟨t, id⟩ → noted tx.notes (⟨t, id⟩ : Key T) = [] ∧
          c'.server.store.get t id = c.server.store.get t id ∧
          c'.view.get t id = c.view.get t id := by
  obtain ⟨_, _, _, _, hi⟩ := hr
  have hwf : (R.contract s₀ B).WellFormed := contract_wf hB
  have hget : ∀ id, c.Owns ⟨t, id⟩ → c'.server.store.get t id = c.server.store.get t id ∧
      c'.view.get t id = c.view.get t id := fun id ho => hi.get_of_owns hwf.commits ho
  cases hi with
  | tick d => exact .inl ⟨rfl, rfl, rfl, le_rfl⟩
  | draw d => exact .inl ⟨rfl, rfl, rfl, Nat.le_add_right _ _⟩
  | commit q tx hq hcompat hI hcond =>
    refine .inr ⟨q, tx, hI.2, rfl, fun id ho => ⟨?_, hget id ho⟩⟩
    obtain ⟨tx₀, htx₀, hown⟩ := ho
    have hno := (hcompat tx₀ htx₀).not_owns hown
    exact ((hB q _ hI.1).2 tx rfl).noted_eq_nil hno

/-- Time passes and numbers are drawn: `c'` sees what `c` sees. -/
theorem Sweeping.advance {snap : Snapshot T} {k : κ} {visited : List (Id t)}
    (h : R.Sweeping s₀ snap k visited c) (htx : c'.tx = c.tx)
    (hstore : c'.server.store = c.server.store) (hlog : c'.server.log = c.server.log) :
    R.Sweeping s₀ snap k visited c' := by
  obtain ⟨otx, ⟨store, log, clock, seq⟩⟩ := c
  obtain ⟨otx', ⟨store', log', clock', seq'⟩⟩ := c'
  cases htx
  cases hstore
  cases hlog
  cases otx <;>
    exact ⟨h.opened, h.asOf_le, h.told, h.same, h.known, h.owned, h.visited, h.unnoted, h.good⟩

theorem Refilling.advance {a : Nat} {k : κ} {done : Set (Id t)} (h : R.Refilling s₀ a k done c)
    (htx : c'.tx = c.tx) (hstore : c'.server.store = c.server.store)
    (hlog : c'.server.log = c.server.log) (hseq : c.server.seq ≤ c'.server.seq) :
    R.Refilling s₀ a k done c' := by
  have hins : ∀ id r, R.Inserts s₀ c id r → R.Inserts s₀ c' id r := by
    intro id r hr
    obtain ⟨otx, ⟨store, log, clock, seq⟩⟩ := c
    obtain ⟨otx', ⟨store', log', clock', seq'⟩⟩ := c'
    cases htx
    cases hstore
    cases hlog
    cases otx <;>
      exact ⟨hr.noted, hr.view, hr.new, Nat.lt_of_lt_of_le hr.drawn hseq, hr.untold⟩
  have hinserted : ∀ id ∈ done, c.Owns ⟨t, id⟩ ∧ ∃ r, R.Inserts s₀ c' id r := fun id hid =>
    ⟨(h.inserted id hid).1, (h.inserted id hid).2.imp fun r hr => hins id r hr⟩
  clear hins
  obtain ⟨otx, ⟨store, log, clock, seq⟩⟩ := c
  obtain ⟨otx', ⟨store', log', clock', seq'⟩⟩ := c'
  cases htx
  cases hstore
  cases hlog
  cases otx <;>
    exact ⟨h.asOf_le, h.left, h.owned, hinserted, h.unnoted, h.good⟩

theorem stable_sweeping (hB : ∀ p c, B p c → c.Wf) (snap : Snapshot T) (k : κ)
    (visited : List (Id t)) :
    ((R.contract s₀ B).judge p).Stable (R.Sweeping s₀ snap k visited) := by
  intro c c' hr h
  have hinv : R.Inv s₀ c.server := hr.2.1
  rcases rely_cases hB hr with ⟨htx, hstore, hlog, _⟩ | ⟨q, tx, howes, rfl, howned⟩
  · exact h.advance htx hstore hlog
  · have hsince : ∀ a, a ≤ c.server.log.length → ∀ id : Id t,
        (c.server.commit q tx).since a ⟨t, id⟩ =
          c.server.since a ⟨t, id⟩ ++ noted tx.notes ⟨t, id⟩ :=
      fun a ha id => Server.since_commit ha q tx _
    have htallied := hinv.tallied.log_le
    -- a tuple of the snapshot that is stored is not one that has just been inserted
    have hkept : ∀ id r, snap.store.get t id = some r →
        (c.server.commit q tx).store.get t id = some r →
        noted tx.notes (⟨t, id⟩ : Key T) = [] ∧ c.server.store.get t id = some r := by
      intro id r hs hr'
      rcases howes.cases q id with ⟨hnone, hold⟩ | ⟨r', _, hnew, hins⟩
      · exact ⟨hnone, hold r hr'⟩
      · rw [hnew] at hr'
        cases hr'
        rcases h.told id r hs with hlt | htold
        · exact absurd hins.new (Nat.not_le.2 hlt)
        · exact absurd htold hins.untold
    refine ⟨h.opened, ?_, ?_, ?_, ?_, ?_, ?_, h.unnoted, howes.good_storedSince q h.asOf_le h.good⟩
    · rw [Server.commit_log, List.length_append]
      exact Nat.le_trans h.asOf_le (Nat.le_add_right _ _)
    · intro id r hs
      rw [hsince _ htallied]
      exact (h.told id r hs).imp_right (List.mem_append_left _)
    · intro id r hs hr'
      obtain ⟨hnone, hold⟩ := hkept id r hs hr'
      rw [hsince _ h.asOf_le, hnone, List.append_nil]
      exact h.same id r hs hold
    · intro id r hk hr'
      rw [hsince _ h.asOf_le]
      rcases howes.cases q id with ⟨hnone, hold⟩ | ⟨r', hnoted, _, _⟩
      · rw [hnone, List.append_nil]
        exact h.known id r hk (hold r hr')
      · rw [hnoted]
        exact .inl (List.append_ne_nil_of_right_ne_nil _ (List.cons_ne_nil _ _))
    · intro id ho
      have ho' : c.Owns ⟨t, id⟩ := ho
      obtain ⟨hnone, hstore, hview⟩ := howned id ho'
      obtain ⟨hk, hgone, hyoung⟩ := h.owned id ho'
      have hstore' : (c.server.commit q tx).store.get t id = c.server.store.get t id := hstore
      rw [hsince _ h.asOf_le, hnone, List.append_nil, hstore', hview]
      exact ⟨hk, hgone, hyoung⟩
    · intro id hid r hs hr'
      exact h.visited id hid r hs (hkept id r hs hr').2

theorem stable_refilling (hB : ∀ p c, B p c → c.Wf) (a : Nat) (k : κ) (done : Set (Id t)) :
    ((R.contract s₀ B).judge p).Stable (R.Refilling s₀ a k done) := by
  intro c c' hr h
  have hinv : R.Inv s₀ c.server := hr.2.1
  rcases rely_cases hB hr with ⟨htx, hstore, hlog, hseq⟩ | ⟨q, tx, howes, rfl, howned⟩
  · exact h.advance htx hstore hlog hseq
  · have hsince : ∀ a, a ≤ c.server.log.length → ∀ id : Id t,
        (c.server.commit q tx).since a ⟨t, id⟩ =
          c.server.since a ⟨t, id⟩ ++ noted tx.notes ⟨t, id⟩ :=
      fun a ha id => Server.since_commit ha q tx _
    refine ⟨?_, ?_, ?_, ?_, h.unnoted, howes.good_storedSince q h.asOf_le h.good⟩
    · rw [Server.commit_log, List.length_append]
      exact Nat.le_trans h.asOf_le (Nat.le_add_right _ _)
    · intro id hk hsome
      rw [hsince _ h.asOf_le]
      obtain ⟨r, hr'⟩ := Option.ne_none_iff_exists'.1 hsome
      rcases howes.cases q id with ⟨hnone, hold⟩ | ⟨r', hnoted, _, _⟩
      · rw [hnone, List.append_nil]
        refine h.left id hk ?_
        rw [hold r hr']
        exact Option.some_ne_none r
      · rw [hnoted]
        exact .inl (List.append_ne_nil_of_right_ne_nil _ (List.cons_ne_nil _ _))
    · intro id ho
      have ho' : c.Owns ⟨t, id⟩ := ho
      obtain ⟨hnone, hstore, hview⟩ := howned id ho'
      have hstore' : (c.server.commit q tx).store.get t id = c.server.store.get t id := hstore
      rw [hsince _ h.asOf_le, hnone, List.append_nil, hstore', hview]
      exact h.owned id ho'
    · intro id hid
      obtain ⟨ho, r, hins⟩ := h.inserted id hid
      obtain ⟨hnone, _, hview⟩ := howned id ho
      refine ⟨ho, r, hins.noted, ?_, hins.new, hins.drawn, ?_⟩
      · rw [hview]
        exact hins.view
      · rw [hsince _ hinv.tallied.log_le, hnone, List.append_nil]
        exact hins.untold

theorem stable_unlocked : ((R.contract s₀ B).judge p).Stable (Unlocked t) := by
  intro c c' hr h
  have htx : c'.tx = c.tx := Contract.private_judge (K := R.contract s₀ B) c c' hr
  obtain ⟨otx, srv⟩ := c
  obtain ⟨otx', srv'⟩ := c'
  cases htx
  exact ⟨h.opened, h.free, h.unnoted⟩

/-! ### Acts on other tables

These assertions survive what the request does to other tables.
-/

theorem Sweeping.aside {snap : Snapshot T} {k : κ} {visited : List (Id t)} (hs : Aside t c c')
    (h : R.Sweeping s₀ snap k visited c) : R.Sweeping s₀ snap k visited c' := by
  have hsince : ∀ a (id : Id t), c'.server.since a ⟨t, id⟩ = c.server.since a ⟨t, id⟩ := by
    intro a id
    unfold Server.since
    rw [hs.log]
  have hgood : R.storedSince c'.server snap.asOf k = R.storedSince c.server snap.asOf k := by
    ext id
    unfold storedSince stored
    simp only [Set.mem_ofPred_eq, hs.store, hsince]
  constructor
  · rw [← hs.opened]
    exact h.opened
  · rw [hs.log]
    exact h.asOf_le
  · simpa only [hsince] using h.told
  · simpa only [hsince, hs.store] using h.same
  · simpa only [hsince, hs.store] using h.known
  · simpa only [hsince, hs.store, hs.owns, hs.view] using h.owned
  · simpa only [hs.store, hs.owns] using h.visited
  · simpa only [hs.noted] using h.unnoted
  · rw [hgood]
    exact h.good

theorem Inserts.aside (hs : Aside t c c') {id : Id t} {r : Row t} (h : R.Inserts s₀ c id r) :
    R.Inserts s₀ c' id r where
  noted := by
    rw [hs.noted]
    exact h.noted
  view := by
    rw [hs.view]
    exact h.view
  new := h.new
  drawn := Nat.lt_of_lt_of_le h.drawn hs.seq_le
  untold := by
    unfold Server.since
    rw [hs.log]
    exact h.untold

theorem Refilling.aside {a : Nat} {k : κ} {done : Set (Id t)} (hs : Aside t c c')
    (h : R.Refilling s₀ a k done c) : R.Refilling s₀ a k done c' := by
  have hsince : ∀ a (id : Id t), c'.server.since a ⟨t, id⟩ = c.server.since a ⟨t, id⟩ := by
    intro a id
    unfold Server.since
    rw [hs.log]
  have hgood : R.storedSince c'.server a k = R.storedSince c.server a k := by
    ext id
    unfold storedSince stored
    simp only [Set.mem_ofPred_eq, hs.store, hsince]
  constructor
  · rw [hs.log]
    exact h.asOf_le
  · simpa only [hsince, hs.store, hs.owns] using h.left
  · simpa only [hsince, hs.store, hs.owns, hs.view] using h.owned
  · intro id hid
    obtain ⟨ho, r, hins⟩ := h.inserted id hid
    exact ⟨(hs.owns id).2 ho, r, hins.aside hs⟩
  · simpa only [hs.noted] using h.unnoted
  · rw [hgood]
    exact h.good

theorem Unlocked.aside (hs : Aside t c c') (h : Unlocked t c) : Unlocked t c' := by
  constructor
  · rw [← hs.opened]
    exact h.opened
  · simpa only [hs.owns] using h.free
  · simpa only [hs.noted] using h.unnoted

/-! ### The statements of a replacement

What the `DELETE` and each `INSERT` make of the assertions, as triples.
-/

theorem Unlocked.of_begun (h : c.Begun) : Unlocked t c := by
  obtain ⟨otx, srv⟩ := c
  obtain ⟨start, hstart⟩ := h
  cases hstart
  refine ⟨rfl, fun id => ?_, fun id => rfl⟩
  rintro ⟨tx, htx, m, _, hmem⟩
  cases htx
  cases hmem

/-- **The snapshot of the `DELETE`.** Nothing has been committed since. -/
theorem Unlocked.sweeping (h : Unlocked t c) (hwf : c.Wf) (hinv : R.Inv s₀ c.server) (k : κ) :
    R.Sweeping s₀ c.snapshot k [] c := by
  have hview : ∀ id, c.view.get t id = c.server.store.get t id := fun id =>
    Conn.view_get_of_not_owns hwf (h.free id)
  refine ⟨h.opened, le_rfl, fun id r hr => ?_, fun id r _ _ => Server.since_now _ _, fun id r _ hr => ?_,
    fun id ho => absurd ho (h.free id), fun id hid => (by cases hid), h.unnoted, ?_⟩
  · have hstored : c.server.store.get t id = some r := by
      rw [← hview id]
      exact hr
    exact hinv.tallied.told id r hstored
  · refine .inr ?_
    show c.view.get t id = some r
    rw [hview id]
    exact hr
  · have hnone : R.storedSince c.server c.snapshot.asOf k = ∅ := by
      ext id
      refine ⟨fun hid => ?_, fun hid => absurd hid (Set.notMem_empty id)⟩
      exact absurd (Server.since_now _ _) hid.2
    rw [hnone]
    exact R.empty

/-- **A swept set is to be filled again.** -/
theorem Sweeping.refilling {snap : Snapshot T} {k : κ} {visited : List (Id t)}
    (h : R.Sweeping s₀ snap k visited c)
    (hall : ∀ id r, R.part id = k → snap.store.get t id = some r → id ∈ visited) :
    R.Refilling s₀ snap.asOf k ∅ c where
  asOf_le := h.asOf_le
  left id hk hsome := by
    obtain ⟨r, hr⟩ := Option.ne_none_iff_exists'.1 hsome
    rcases h.known id r hk hr with hyoung | hs
    · exact .inl hyoung
    · exact .inr (h.visited id (hall id r hk hs) r hs hr)
  owned id ho := by
    obtain ⟨hk, hgone, hyoung⟩ := h.owned id ho
    exact ⟨hk, hyoung, fun _ => hgone⟩
  inserted id hid := absurd hid (Set.notMem_empty id)
  unnoted id _ := h.unnoted id
  good := h.good

/-- **The visit of one row by the `DELETE`**: it is gone, or somebody else has put another tuple in
its place. -/
theorem Sweeping.visit {snap : Snapshot T} {k : κ} {visited : List (Id t)} {id : Id t}
    {d : Delete T t} (hwf : c.Wf) (h : R.Sweeping s₀ snap k visited c)
    (hk : R.part id = k) (hcond : ∀ r, d.cond snap id r = true)
    (hseen : ∀ r, d.seen snap id r = true ↔ snap.store.get t id = some r) (q : Nat) :
    R.Sweeping s₀ snap k (visited ++ [id])
      ((Act.delete t id (d.seen snap id) (d.cond snap id) (d.ok snap id)).step q c).2 := by
  obtain ⟨otx, srv⟩ := c
  obtain ⟨tx, rfl⟩ := Option.isSome_iff_exists.1 h.opened
  cases hsel : ((tx.view srv.store).get t id).filter (d.seen snap id) with
  | none =>
    simp only [Act.step, Conn.view_some, hsel]
    refine ⟨h.opened, h.asOf_le, h.told, h.same, h.known, h.owned, ?_, h.unnoted, h.good⟩
    intro i hi r hs hr
    rcases List.mem_append.1 hi with hold | hnew
    · exact h.visited i hold r hs hr
    · rw [List.mem_singleton] at hnew
      subst hnew
      by_contra hno
      have hview : (tx.view srv.store).get t i = some r := by
        rw [← hr]
        exact Conn.view_get_of_not_owns (c := ⟨some tx, srv⟩) hwf hno
      rw [hview, Option.filter_some, if_pos ((hseen r).2 hs)] at hsel
      cases hsel
  | some r =>
    obtain ⟨hview, hr⟩ := Option.filter_eq_some_iff.1 hsel
    have hsnap : snap.store.get t id = some r := (hseen r).1 hr
    -- a row that the transaction sees has not been deleted by it
    have hfree : ¬(⟨some tx, srv⟩ : Conn T).Owns ⟨t, id⟩ := by
      intro ho
      have hgone : (tx.view srv.store).get t id = none := (h.owned id ho).2.1
      rw [hview] at hgone
      cases hgone
    have hstored : srv.store.get t id = some r := by
      rw [← hview]
      exact (Conn.view_get_of_not_owns hwf hfree).symm
    simp only [Act.step, Conn.view_some, hsel, hcond r, if_true]
    have howns : ∀ i, (⟨some (tx.write t id .update none []), srv⟩ : Conn T).Owns ⟨t, i⟩ →
        i = id ∨ (⟨some tx, srv⟩ : Conn T).Owns ⟨t, i⟩ := by
      rintro i ⟨tx', htx', m, hm, hmem⟩
      cases htx'
      rcases List.mem_cons.1 hmem with heq | hold
      · cases heq
        exact .inl rfl
      · exact .inr ⟨tx, rfl, m, hm, hold⟩
    refine ⟨rfl, h.asOf_le, h.told, h.same, h.known, ?_, ?_, ?_, h.good⟩
    · intro i ho
      rw [Conn.view_some, Tx.view_write, Store.get_set]
      by_cases hi : i = id
      · subst hi
        rw [if_pos rfl]
        exact ⟨hk, rfl, fun _ => h.same i r hsnap hstored⟩
      · rw [if_neg hi]
        exact h.owned i ((howns i ho).resolve_left hi)
    · intro i hi r' hs hr'
      rcases List.mem_append.1 hi with hold | hnew
      · obtain ⟨tx', htx', ho⟩ := h.visited i hold r' hs hr'
        cases htx'
        exact ⟨_, rfl, ho.write⟩
      · rw [List.mem_singleton] at hnew
        subst hnew
        exact ⟨_, rfl, tx.owns_write t i none [] rfl⟩
    · intro i
      have hnone := h.unnoted i
      simpa [noted_append] using hnone

/-- **The insertion of one row.** -/
theorem Refilling.insert {a : Nat} {k : κ} {done : Set (Id t)} {tx : Tx T} {srv : Server T}
    (h : R.Refilling s₀ a k done ⟨some tx, srv⟩) (hwf : (⟨some tx, srv⟩ : Conn T).Wf)
    (hinv : R.Inv s₀ srv) {id : Id t} {row : Row t} (hk : R.part id = k)
    (hnum : R.num row = srv.seq) (hfree : (tx.view srv.store).get t id = none) :
    R.Refilling s₀ a k (insert id done)
      ⟨some (tx.write t id .update (some row) [R.born row]),
        { srv with seq := srv.seq + 1 }⟩ := by
  -- a row inserted before would be seen, but this key is free
  have hundone : id ∉ done := by
    intro hid
    obtain ⟨_, r, hins⟩ := h.inserted id hid
    have hview : (tx.view srv.store).get t id = some r := hins.view
    rw [hfree] at hview
    cases hview
  -- no other row is noted
  have hnoted : ∀ i, i ≠ id → noted (tx.write t id .update (some row) [R.born row]).notes
      (⟨t, i⟩ : Key T) = noted tx.notes ⟨t, i⟩ := by
    intro i hi
    have hkey : (⟨t, i⟩ : Key T) ≠ ⟨t, id⟩ := fun e => hi (eq_of_heq (Sigma.mk.inj e).2)
    rw [Tx.notes_write, noted_append, noted_write_of_ne hkey, List.append_nil]
  have hview : ∀ i, ((tx.write t id .update (some row) [R.born row]).view srv.store).get t i =
      if i = id then some row else (tx.view srv.store).get t i := fun i => by
    rw [Tx.view_write, Store.get_set]
  refine ⟨h.asOf_le, fun i hi hsome => ?_, fun i ho => ?_, fun i hi => ?_, fun i hi => ?_, h.good⟩
  · rcases h.left i hi hsome with hyoung | ⟨tx', htx', ho⟩
    · exact .inl hyoung
    · cases htx'
      exact .inr ⟨_, rfl, ho.write⟩
  · rw [Conn.view_some, hview]
    by_cases hi : i = id
    · subst hi
      refine ⟨hk, fun hsome => ?_, fun hno => absurd (Set.mem_insert i done) hno⟩
      by_cases ho' : (⟨some tx, srv⟩ : Conn T).Owns ⟨t, i⟩
      · exact (h.owned i ho').2.1 hsome
      · -- an unlocked row is seen as it is committed: there is none
        have hstore : srv.store.get t i = none := by
          rw [← hfree]
          exact (Conn.view_get_of_not_owns (c := ⟨some tx, srv⟩) hwf ho').symm
        exact absurd hstore hsome
    · rw [if_neg hi]
      have hold : (⟨some tx, srv⟩ : Conn T).Owns ⟨t, i⟩ := by
        obtain ⟨tx', htx', m, hm, hmem⟩ := ho
        cases htx'
        rcases List.mem_cons.1 hmem with heq | hold
        · cases heq
          exact absurd rfl hi
        · exact ⟨tx, rfl, m, hm, hold⟩
      obtain ⟨hpart, hyoung, hgone⟩ := h.owned i hold
      exact ⟨hpart, hyoung, fun hno => hgone fun hid => hno (Set.mem_insert_of_mem _ hid)⟩
  · by_cases heq : i = id
    · subst heq
      refine ⟨⟨_, rfl, tx.owns_write t i _ _ rfl⟩, row, ?_, ?_, ?_, ?_, fun htold => ?_⟩
      · have hnone : noted tx.notes (⟨t, i⟩ : Key T) = [] := h.unnoted i hundone
        rw [Conn.notes_some, Tx.notes_write, noted_append, hnone, List.nil_append]
        exact noted_write_self _ [R.born row]
      · rw [Conn.view_some, hview, if_pos rfl]
      · rw [hnum]
        exact hinv.tallied.seq_le
      · rw [hnum]
        exact Nat.lt_succ_self _
      · have hlt := hinv.tallied.drawn i row htold
        omega
    · obtain ⟨⟨tx', htx', ho⟩, r, hins⟩ := h.inserted i (hi.resolve_left heq)
      cases htx'
      refine ⟨⟨_, rfl, ho.write⟩, r, ?_, ?_, hins.new, Nat.lt_succ_of_lt hins.drawn, hins.untold⟩
      · rw [Conn.notes_some, hnoted i heq]
        exact hins.noted
      · rw [Conn.view_some, hview, if_neg heq]
        exact hins.view
  · have hne : i ≠ id := fun e => hi (by rw [e]; exact Set.mem_insert _ _)
    rw [Conn.notes_some, hnoted i hne]
    exact h.unnoted i fun hid => hi (Set.mem_insert_of_mem _ hid)

/-! ### What a replacement owes

A replacement that has inserted a good set meets its obligations, and whoever has not touched the table
owes nothing.
-/

/-- Whoever has not touched the table owes nothing. -/
theorem Unlocked.owes (h : Unlocked t c) (hwf : c.Wf) : R.Owes s₀ c := by
  have hview : ∀ id, c.view.get t id = c.server.store.get t id := fun id =>
    Conn.view_get_of_not_owns hwf (h.free id)
  constructor
  · intro id
    refine .inl ⟨h.unnoted id, fun r hr => ?_⟩
    rw [← hview id]
    exact hr
  · exact fun k => .inl fun id _ => ⟨hview id, h.unnoted id⟩

/-- **A set that has been filled with good rows** meets the obligations. -/
theorem Refilling.owes {a : Nat} {k : κ} {done : Set (Id t)} (h : R.Refilling s₀ a k done c)
    (hwf : c.Wf) (hdone : R.Good done) : R.Owes s₀ c := by
  have hview : ∀ id, ¬c.Owns ⟨t, id⟩ → c.view.get t id = c.server.store.get t id := fun id ho =>
    Conn.view_get_of_not_owns hwf ho
  constructor
  · intro id
    by_cases hid : id ∈ done
    · exact .inr (h.inserted id hid).2
    · refine .inl ⟨h.unnoted id hid, fun r hr => ?_⟩
      by_cases ho : c.Owns ⟨t, id⟩
      · rw [(h.owned id ho).2.2 hid] at hr
        cases hr
      · rw [← hview id ho]
        exact hr
  · intro k'
    by_cases hk : k' = k
    · subst hk
      -- what is inserted is exactly what has been done
      have hins : R.inserted c k' = done := by
        ext id
        constructor
        · intro hid
          by_contra hno
          exact hid.2 (h.unnoted id hno)
        · intro hid
          obtain ⟨ho, r, hr⟩ := h.inserted id hid
          refine ⟨(h.owned id ho).1, ?_⟩
          rw [hr.noted]
          exact List.cons_ne_nil _ _
      refine .inr ⟨a, h.asOf_le, h.good, ?_, ?_⟩
      · rw [hins]
        exact hdone
      · rw [hins]
        ext id
        constructor
        · rintro ⟨hpart, hsome⟩
          by_cases hid : id ∈ done
          · exact .inl hid
          · by_cases ho : c.Owns ⟨t, id⟩
            · rw [(h.owned id ho).2.2 hid] at hsome
              cases hsome
            · rw [hview id ho] at hsome
              have hne : c.server.store.get t id ≠ none := Option.isSome_iff_ne_none.1 hsome
              exact .inr ⟨⟨hpart, hsome⟩, (h.left id hpart hne).resolve_right ho⟩
        · rintro (hid | ⟨⟨hpart, hsome⟩, hyoung⟩)
          · obtain ⟨ho, r, hr⟩ := h.inserted id hid
            refine ⟨(h.owned id ho).1, ?_⟩
            rw [hr.view]
            rfl
          · have ho : ¬c.Owns ⟨t, id⟩ := fun ho =>
              hyoung ((h.owned id ho).2.1 (Option.isSome_iff_ne_none.1 hsome))
            refine ⟨hpart, ?_⟩
            rw [hview id ho]
            exact hsome
    · -- the other sets have not been locked
      refine .inl fun id hpart => ?_
      have ho : ¬c.Owns ⟨t, id⟩ := fun ho => hk (hpart.symm.trans (h.owned id ho).1)
      refine ⟨hview id ho, h.unnoted id fun hid => ho (h.inserted id hid).1⟩

/-- **`DELETE`** of the set `k`: what is left of it has been committed since the snapshot. -/
theorem sweep (hB : ∀ p c, B p c → c.Wf) {d : Delete T t} (k : κ)
    (hcond : ∀ s id r, d.cond s id r = true ↔ R.part id = k)
    (hseen : ∀ (s : Snapshot T) id r, d.seen s id r = true ↔ s.store.get t id = some r) :
    Triple ((R.contract s₀ B).judge p) p (Unlocked t) (d.exec : Prog T ε _)
      fun _ c => ∃ a, R.Refilling s₀ a k ∅ c := by
  have hst : ∀ s visited, ((R.contract s₀ B).judge p).Stable (R.Sweeping s₀ s k visited) :=
    fun s visited => stable_sweeping hB s k visited
  refine Triple.bind (R := fun s => R.Sweeping s₀ s k []) ?_ fun s => ?_
  · exact Triple.query stable_unlocked (fun s => hst s []) fun c hb hc =>
      hc.sweeping (hB p c hb.1) hb.2 k
  · refine (Triple.visit (I := R.Sweeping s₀ s k) (hst s) (fun visited id hid => ?_) []).post
      fun _ c hc => ⟨s.asOf, hc.refilling fun id r hk hr => ?_⟩
    · obtain ⟨e, he, rfl⟩ := List.mem_map.1 hid
      have hk : R.part e.1 = k := (hcond s e.1 e.2).1 (List.mem_filter.1 he).2
      refine Triple.bind (R := fun _ => R.Sweeping s₀ s k (visited ++ [e.1])) ?_ fun _ =>
        Triple.ret (hst s _) fun _ _ hc => hc
      refine Triple.perform (hst s visited) (fun _ => hst s _) fun c hb hc => ⟨by rintro ⟨⟩, ?_⟩
      exact hc.visit (hB p c hb.1) hk (fun r => (hcond s e.1 r).2 hk) (hseen s e.1) p
    · rw [List.nil_append]
      exact List.mem_map.2 ⟨(id, r), List.mem_filter.2 ⟨Store.mem_rows.2 hr, (hcond s id r).2 hk⟩, rfl⟩

/-- **`INSERT`** of a row of the set. -/
theorem refill (hB : ∀ p c, B p c → c.Wf) {a : Nat} {k : κ} {done : Set (Id t)} {i : Insert T t}
    {dup : ε} {id : Id t} (hkey : ∀ n, i.key n = id) (hk : R.part id = k)
    (hnum : ∀ n, R.num (i.row n) = n) (hborn : ∀ n, i.evs n = [R.born (i.row n)]) :
    Triple ((R.contract s₀ B).judge p) p (R.Refilling s₀ a k done) (i.exec dup)
      fun _ => R.Refilling s₀ a k (insert id done) := by
  refine Triple.insert (stable_refilling hB a k done) (fun _ => stable_refilling hB a k _) ?_
  intro tx srv hb hc hfree
  rw [hkey] at hfree ⊢
  rw [hborn]
  exact hc.insert (hB p _ hb.1) hb.2 hk (hnum _) (Store.get_of_blocks hfree)

/-- **`COMMIT`** of whoever owes nothing more. -/
theorem commitTx {P : Conn T → Prop} (hst : ((R.contract s₀ B).judge p).Stable P)
    (h : ∀ c, B p c → P c → R.Owes s₀ c) :
    Triple ((R.contract s₀ B).judge p) p P (ReadCommitted.commitTx : Prog T ε Unit)
      fun _ c => c.tx = none := by
  refine Triple.commitTx Contract.private_judge hst fun c hb hc => ⟨h c hb.1 hc, ?_⟩
  intro tx htx
  obtain ⟨otx, srv⟩ := c
  cases htx
  exact hb.2.commit (h _ hb.1 hc) p

/-- **The invariant is kept**, if every program owes what the contract says. -/
theorem kept {prog : Req → Prog T ε ρ} {Q : Nat → Req → ρ → Conn T → Prop}
    (hbase : ∀ C : Config T ε ρ Req, Reachable prog s₀ C → ∀ p, B p (C.conn p))
    (hnum : ∀ id r, s₀.store.get t id = some r → R.num r < s₀.seq)
    (hgood : ∀ k, R.Good (R.stored s₀.store k))
    (hprog : ∀ p req, Triple ((R.contract s₀ B).judge p) p (fun c => c.tx = none) (prog req)
      (Q p req)) : (R.contract s₀ B).Kept prog s₀ Q where
  base := hbase
  init :=
    { tallied :=
        { log_le := le_rfl
          seq_le := le_rfl
          told := fun id r hr => .inl (hnum id r hr)
          drawn := fun id r hr => by
            rw [Server.since_now] at hr
            cases hr }
      good := hgood }
  advance _ n d h := h.advance n d
  prog := hprog

/-- **Good sets stay good**, however the transactions that replace them are interleaved. -/
theorem good {prog : Req → Prog T ε ρ} {Q : Nat → Req → ρ → Conn T → Prop}
    (hkept : (R.contract s₀ B).Kept prog s₀ Q) {C : Config T ε ρ Req} (h : Reachable prog s₀ C)
    (k : κ) : R.Good (R.stored C.server.store k) :=
  (Contract.sound hkept h).1.good k

end Stable

end Renewal

end ReadCommitted
