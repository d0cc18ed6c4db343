import ArcAdmin.ReadCommitted.Statements

/-!
# Footprints and row relations

What a program leaves alone. Most of what a transaction does is beside the point of any one
property; the lemmas here carry a property past it.

* **`Act.Within`**, **`Framed`** — a program all of whose changes satisfy `φ` leaves the rest of
  what its connection sees as it was, whatever the others do (`Triple.within`);
* **`RowRel`** — a relation between each committed row and the same row as the connection sees it;
  a reflexive one is stable (`RowRel.interferes`), since an open row has no other writer;
* **`Carried`**, **`Triple.speaks`** — the same for programs that also start and end transactions.
-/

namespace ReadCommitted

open Schema (Id Row Ev serialNo clash Allowed)

variable {T : Type} [Schema T] {ε α : Type}

/-! ## Making certain changes only

A footprint is a condition on single changes: the table, the key, the row before and after, and
the events. The usual one is a set of tables; finer ones tell which columns may change, or which
rows.
-/

/-- Any change of the tables `ts`, and no change of the others. -/
def tables (ts : List T) : Change T := fun t _ _ _ _ => t ∈ ts

/-- `φ` puts no condition on the changes of table `t`. -/
def Free (φ : Change T) (t : T) : Prop := ∀ id old new evs, φ t id old new evs

/-- `φ` allows no change of table `t`. -/
def Frozen (φ : Change T) (t : T) : Prop := ∀ id old new evs, ¬φ t id old new evs

/-- `φ` allows every change of a row of table `t` that leaves no events, but no new rows. -/
def Edits (φ : Change T) (t : T) : Prop := ∀ id r new, φ t id (some r) new []

/-- `φ` allows every change of a row of table `t`, but no new rows. -/
def Alters (φ : Change T) (t : T) : Prop := ∀ id r new evs, φ t id (some r) new evs

theorem Free.alters {φ : Change T} {t : T} (h : Free φ t) : Alters φ t := fun _ _ _ _ => h _ _ _ _

theorem Alters.edits {φ : Change T} {t : T} (h : Alters φ t) : Edits φ t := fun _ _ _ => h _ _ _ _

theorem Free.edits {φ : Change T} {t : T} (h : Free φ t) : Edits φ t := fun _ _ _ => h _ _ _ _

theorem free_tables {ts : List T} {t : T} (h : t ∈ ts) : Free (tables ts) t := fun _ _ _ _ => h

theorem frozen_tables {ts : List T} {t : T} (h : t ∉ ts) : Frozen (tables ts) t :=
  fun _ _ _ _ => h

/-- Any change of the tables other than `t`. -/
def besides (t : T) : Change T := fun u _ _ _ _ => u ≠ t

/-- Any change but a new row of table `t`. -/
def noInserts (t : T) : Change T := fun u _ old _ _ => u = t → old.isSome

/-- Any change. -/
def anything : Change T := fun _ _ _ _ _ => True

theorem free_anything {t : T} : Free anything t := fun _ _ _ _ => trivial

theorem free_besides {t u : T} (h : u ≠ t) : Free (besides t) u := fun _ _ _ _ => h

theorem free_noInserts {t u : T} (h : u ≠ t) : Free (noInserts t) u := fun _ _ _ _ e => absurd e h

theorem alters_noInserts (t : T) : Alters (noInserts t) t := fun _ _ _ _ _ => rfl

/-- The act neither starts nor ends a transaction nor leaves an event of its own, and its changes
satisfy `φ`. -/
def Act.Within (φ : Change T) : Act T → Prop
  | .begin | .commit | .rollback | .note _ => False
  | a => a.Respects φ

theorem Act.Within.mono {φ ψ : Change T}
    (h : ∀ t id old new evs, φ t id old new evs → ψ t id old new evs) {a : Act T}
    (ha : a.Within φ) : a.Within ψ := by
  cases a with
  | begin | commit | rollback | note => cases ha
  | update => exact fun r hr => h _ _ _ _ _ (ha r hr)
  | delete => exact fun r hr => h _ _ _ _ _ (ha r hr)
  | insert => exact fun n => h _ _ _ _ _ (ha n)
  | upsert => exact ⟨h _ _ _ _ _ ha.1, fun r r' hr => h _ _ _ _ _ (ha.2 r r' hr)⟩
  | query | poolQuery | clock | fresh | lock => trivial

/-- **`c'` differs from `c` by changes that satisfy `φ`** and the row protocol: nothing was
committed, a row looks the same or has changed as `φ` allows, locks were only taken, and the events
since are those of changes that `φ` allows. -/
structure Framed (φ : Change T) (c c' : Conn T) : Prop where
  store : c'.server.store = c.server.store
  log : c'.server.log = c.server.log
  clock : c'.server.clock = c.server.clock
  table : ∀ t, Frozen φ t → c'.view t = c.view t
  row : ∀ t id, c'.view.get t id = c.view.get t id ∨
    ∃ evs, φ t id (c.view.get t id) (c'.view.get t id) evs ∧
      Allowed t id (c.view.get t id) (c'.view.get t id) evs
  tx : c.tx = none ∧ c'.tx = none ∨ ∃ tx tx', c.tx = some tx ∧ c'.tx = some tx' ∧
    tx.locks ⊆ tx'.locks ∧ tx'.start = tx.start ∧ ∃ ns, tx'.notes = tx.notes ++ ns ∧
      ∀ n ∈ ns, ∃ k : Key T, n.1 = some k ∧ ∃ old new evs, φ k.1 k.2 old new evs ∧ n.2 ∈ evs

namespace Framed

variable {φ : Change T} {c c' : Conn T}

theorem refl (c : Conn T) : Framed φ c c where
  store := rfl
  log := rfl
  clock := rfl
  table := fun _ _ => rfl
  row := fun _ _ => .inl rfl
  tx := by
    cases h : c.tx with
    | none => exact .inl ⟨rfl, rfl⟩
    | some tx => exact .inr ⟨tx, tx, rfl, rfl, fun _ h => h, rfl, [], by simp, by simp⟩

theorem mono {ψ : Change T} (h : Framed φ c c')
    (hφ : ∀ t id old new evs, φ t id old new evs → ψ t id old new evs) : Framed ψ c c' where
  store := h.store
  log := h.log
  clock := h.clock
  table := fun t ht => h.table t fun id old new evs hc => ht id old new evs (hφ _ _ _ _ _ hc)
  row := fun t id => (h.row t id).imp_right fun ⟨evs, hc, hok⟩ => ⟨evs, hφ _ _ _ _ _ hc, hok⟩
  tx := by
    refine h.tx.imp_right ?_
    rintro ⟨tx, tx', htx, htx', hlocks, hstart, ns, hns, hall⟩
    refine ⟨tx, tx', htx, htx', hlocks, hstart, ns, hns, fun n hn => ?_⟩
    obtain ⟨k, hk, old, new, evs, hc, hmem⟩ := hall n hn
    exact ⟨k, hk, old, new, evs, hφ _ _ _ _ _ hc, hmem⟩

/-- A row of a table outside the footprint looks the same. -/
theorem view_get (h : Framed φ c c') {t : T} (ht : Frozen φ t) (id : Id t) :
    c'.view.get t id = c.view.get t id := by
  unfold Store.get
  rw [h.table t ht]

/-- The transaction stays open, or stays closed. -/
theorem isSome (h : Framed φ c c') : c.tx.isSome = c'.tx.isSome := by
  rcases h.tx with ⟨h₁, h₂⟩ | ⟨tx, tx', h₁, h₂, _⟩ <;> rw [h₁, h₂]
  rfl

/-- Locks are kept. -/
theorem locked (h : Framed φ c c') {l : Key T × LockMode}
    (hl : ∃ tx, c.tx = some tx ∧ l ∈ tx.locks) : ∃ tx, c'.tx = some tx ∧ l ∈ tx.locks := by
  obtain ⟨tx, htx, hmem⟩ := hl
  rcases h.tx with ⟨hnone, _⟩ | ⟨tx₁, tx₂, h₁, h₂, hlocks, _⟩
  · rw [hnone] at htx
    cases htx
  · rw [h₁] at htx
    cases htx
    exact ⟨tx₂, h₂, hlocks hmem⟩

theorem owns (h : Framed φ c c') {k : Key T} (ho : c.Owns k) : c'.Owns k := by
  obtain ⟨tx, htx, m, hm, hmem⟩ := ho
  obtain ⟨tx', htx', hmem'⟩ := h.locked ⟨tx, htx, hmem⟩
  exact ⟨tx', htx', m, hm, hmem'⟩

/-- The connection has only taken a lock. -/
theorem acquire (tx : Tx T) (s : Server T) (k : Key T) (m : LockMode) :
    Framed φ ⟨some tx, s⟩ ⟨some (tx.acquire k m), s⟩ where
  store := rfl
  log := rfl
  clock := rfl
  table := fun _ _ => rfl
  row := fun _ _ => .inl rfl
  tx := .inr ⟨tx, _, rfl, rfl, List.subset_cons_self _ _, rfl, [], by simp, by simp⟩

/-- The connection has only drawn numbers. -/
theorem draw (c : Conn T) (n : Nat) :
    Framed φ c ⟨c.tx, { c.server with seq := c.server.seq + n }⟩ := by
  obtain ⟨otx, s⟩ := c
  have hsame := refl (φ := φ) ⟨otx, s⟩
  cases otx <;>
    exact ⟨rfl, rfl, rfl, fun _ _ => rfl, fun _ _ => .inl rfl, hsame.tx⟩

/-- The connection has written one row as `φ` allows. -/
theorem write (tx : Tx T) (s : Server T) {t : T} {id : Id t} (m : LockMode) {v : Option (Row t)}
    {evs : List (Ev T)} (hφ : φ t id ((tx.view s.store).get t id) v evs)
    (hok : Allowed t id ((tx.view s.store).get t id) v evs) (d : Nat) :
    Framed φ ⟨some tx, s⟩ ⟨some (tx.write t id m v evs), { s with seq := s.seq + d }⟩ where
  store := rfl
  log := rfl
  clock := rfl
  table := fun u hu => by
    have hne : u ≠ t := by
      rintro rfl
      exact hu _ _ _ _ hφ
    exact Store.set_apply_of_ne _ id v hne
  row := fun u id' => by
    by_cases hk : (⟨u, id'⟩ : Key T) = ⟨t, id⟩
    · cases hk
      exact .inr ⟨evs, by simpa using hφ, by simpa using hok⟩
    · exact .inl (by simpa using Store.get_set_of_key_ne (tx.view s.store) v hk)
  tx := by
    refine .inr ⟨tx, _, rfl, rfl, List.subset_cons_self _ _, rfl, _, rfl, fun n hn => ?_⟩
    obtain ⟨e, he, rfl⟩ := List.mem_map.1 hn
    exact ⟨_, rfl, _, _, evs, hφ, he⟩

end Framed

/-- **An act within `φ` makes only changes that `φ` allows.** -/
theorem Act.Within.framed {φ : Change T} {a : Act T} (ha : a.Within φ) (p : Nat) (c : Conn T) :
    Framed φ c (a.step p c).2 := by
  obtain ⟨otx, s⟩ := c
  cases a with
  | begin | commit | rollback | note => cases ha
  | query | poolQuery | clock => exact .refl _
  | fresh => exact .draw _ 1
  -- a lock writes nothing
  | lock t id m recheck =>
    cases otx with
    | none => exact .refl _
    | some tx =>
      cases hr : (tx.view s.store).get t id with
      | none => simpa [Act.step, hr] using Framed.refl _
      | some r => simpa [Act.step, hr] using Framed.acquire tx s ⟨t, id⟩ m
  | update t id recheck set evs ok =>
    cases otx with
    | none => exact .refl _
    | some tx =>
      cases hr : (tx.view s.store).get t id with
      | none => simpa [Act.step, hr] using Framed.refl _
      | some r =>
        by_cases hc : recheck r = true
        · have hφ : φ t id ((tx.view s.store).get t id) (some (set r)) (evs r) := by
            rw [hr]
            exact ha r hc
          have hok : Allowed t id ((tx.view s.store).get t id) (some (set r)) (evs r) := by
            rw [hr]
            exact ok r hc
          simpa [Act.step, hr, hc] using Framed.write tx s .noKeyUpdate hφ hok 0
        · simpa [Act.step, hr, hc] using Framed.acquire tx s ⟨t, id⟩ .noKeyUpdate
  | delete t id seen recheck ok =>
    cases otx with
    | none => exact .refl _
    | some tx =>
      cases hsel : ((tx.view s.store).get t id).filter seen with
      | none => simpa [Act.step, hsel] using Framed.refl _
      | some r =>
        have hr : (tx.view s.store).get t id = some r := (Option.filter_eq_some_iff.1 hsel).1
        by_cases hc : recheck r = true
        · have hφ : φ t id ((tx.view s.store).get t id) none [] := by
            rw [hr]
            exact ha r hc
          have hok : Allowed t id ((tx.view s.store).get t id) none [] := by
            rw [hr]
            exact ok r hc
          simpa [Act.step, hsel, hc] using Framed.write tx s .update hφ hok 0
        · simpa [Act.step, hsel, hc] using Framed.acquire tx s ⟨t, id⟩ .update
  -- an insertion that is blocked has drawn its number all the same
  | insert t key row evs hkey ok =>
    cases otx with
    | none => exact .draw _ 1
    | some tx =>
      by_cases hb : (tx.view s.store).blocks t (key s.seq) (row s.seq) = true
      · simpa [Act.step, hb] using Framed.draw _ 1
      · have hnone : (tx.view s.store).get t (key s.seq) = none := by
          simp only [Store.blocks, Bool.or_eq_true, not_or] at hb
          simpa using hb.1
        have hφ : φ t (key s.seq) ((tx.view s.store).get t (key s.seq)) (some (row s.seq))
            (evs s.seq) := by
          rw [hnone]
          exact ha s.seq
        have hok : Allowed t (key s.seq) ((tx.view s.store).get t (key s.seq)) (some (row s.seq))
            (evs s.seq) := by
          rw [hnone]
          exact ok s.seq
        simpa [Act.step, hb] using Framed.write tx s .update hφ hok 1
  -- `ON CONFLICT`: no row yet, a row that is set, or one whose new values are an error
  | upsert t id row set hkey okInsert okUpdate =>
    cases otx with
    | none => exact .refl _
    | some tx =>
      cases hr : (tx.view s.store).get t id with
      | none =>
        have hφ : φ t id ((tx.view s.store).get t id) (some row) [] := by
          rw [hr]
          exact ha.1
        have hok : Allowed t id ((tx.view s.store).get t id) (some row) [] := by
          rw [hr]
          exact okInsert
        simpa [Act.step, hr] using Framed.write tx s .update hφ hok 0
      | some r =>
        cases hset : set r with
        | none => simpa [Act.step, hr, hset] using Framed.acquire tx s ⟨t, id⟩ .noKeyUpdate
        | some r' =>
          have hφ : φ t id ((tx.view s.store).get t id) (some r') [] := by
            rw [hr]
            exact ha.2 r r' hset
          have hok : Allowed t id ((tx.view s.store).get t id) (some r') [] := by
            rw [hr]
            exact okUpdate r r' hset
          simpa [Act.step, hr, hset] using Framed.write tx s .noKeyUpdate hφ hok 0

/-- A property that changes within `φ` keep. -/
def FrameClosed (φ : Change T) (P : Conn T → Prop) : Prop := ∀ c c', Framed φ c c' → P c → P c'

/-- **A property survives every program whose changes keep it.** -/
theorem Triple.within {J : Judge T} {p : Nat} {P : Conn T → Prop} {m : Prog T ε α} {φ : Change T}
    (hst : J.Stable P) (hP : FrameClosed φ P) (hm : m.All (Act.Within φ)) :
    Triple J p P m fun _ => P := by
  refine Triple.of_all hst (fun a ha c _ hc => ⟨?_, hP c _ (ha.framed p c) hc⟩) hm
  rintro rfl
  cases ha

/-! ## Row relations

A property of a transaction that has begun to write is most often one that compares each row with
its committed version. Where the relation is reflexive, nothing that the others do can break it.
-/

/-- **What a connection reads in a row is untouched by the others, or it is what is committed**,
both before and after. -/
theorem Conn.Wf.interferes_view {I : Nat → Conn T → Prop} {cond : Nat → Conn T → Prop} {p : Nat}
    {c c' : Conn T} (hwf : c.Wf) (hI : ∀ q c, I q c → c.Wf) (hi : Interferes I cond p c c') (t : T)
    (id : Id t) :
    c'.view.get t id = c.view.get t id ∧ c'.server.store.get t id = c.server.store.get t id ∨
      c.view.get t id = c.server.store.get t id ∧
        c'.view.get t id = c'.server.store.get t id := by
  by_cases ho : c.Owns ⟨t, id⟩
  · obtain ⟨hstore, hview⟩ := hi.get_of_owns hI ho
    exact .inl ⟨hview, hstore⟩
  · obtain ⟨otx, s⟩ := c
    obtain ⟨otx', s'⟩ := c'
    have htx : otx' = otx := hi.tx_eq
    subst htx
    cases otx' with
    | none => exact .inr ⟨rfl, rfl⟩
    | some tx =>
      have hno : ¬tx.Owns ⟨t, id⟩ := fun hown => ho ⟨tx, rfl, hown⟩
      exact .inr ⟨(hwf.2 tx rfl).view_get s.store hno, (hwf.2 tx rfl).view_get s'.store hno⟩

/-- The relation `ρ` holds between every committed row of `t` and the row as the connection
sees it. -/
def Conn.RowRel (c : Conn T) (t : T) (ρ : Id t → Option (Row t) → Option (Row t) → Prop) : Prop :=
  ∀ id, ρ id (c.server.store.get t id) (c.view.get t id)

namespace RowRel

variable {t : T} {ρ : Id t → Option (Row t) → Option (Row t) → Prop} {c c' : Conn T}

theorem of_view_eq (hrefl : ∀ id v, ρ id v v) (h : ∀ id, c.view.get t id = c.server.store.get t id) :
    c.RowRel t ρ := fun id => by
  rw [h id]
  exact hrefl id _

/-- **A reflexive row relation is stable**: whoever has changed a row is its only writer, and sees
all other rows as committed. -/
theorem interferes (hrefl : ∀ id v, ρ id v v) {I : Nat → Conn T → Prop}
    {cond : Nat → Conn T → Prop} {p : Nat} (hwf : c.Wf) (hI : ∀ q c, I q c → c.Wf)
    (h : c.RowRel t ρ) (hi : Interferes I cond p c c') : c'.RowRel t ρ := by
  intro id
  rcases hwf.interferes_view hI hi t id with ⟨hview, hstore⟩ | ⟨_, hview⟩
  · rw [hstore, hview]
    exact h id
  · rw [hview]
    exact hrefl id _

/-- Changes that extend a row relation keep it. -/
theorem framed {φ : Change T}
    (hφ : ∀ id old v v' evs, φ t id v v' evs → Allowed t id v v' evs → ρ id old v → ρ id old v')
    (h : c.RowRel t ρ) (hf : Framed φ c c') : c'.RowRel t ρ := by
  intro id
  rw [hf.store]
  rcases hf.row t id with hsame | ⟨evs, hchange, hok⟩
  · rw [hsame]
    exact h id
  · exact hφ id _ _ _ evs hchange hok (h id)

end RowRel

/-! ## Whole transactions

Programs within a footprint do not commit. To carry a property through a program that does, it has
to hold of a connection that has nothing open, and to allow the commit.
-/

/-- A transaction that has done nothing yet. -/
def Conn.Begun (c : Conn T) : Prop := ∃ start, c.tx = some ⟨start, [], [], []⟩

theorem Conn.Begun.view_eq {c : Conn T} (h : c.Begun) : c.view = c.server.store := by
  obtain ⟨otx, s⟩ := c
  obtain ⟨start, htx⟩ := h
  cases htx
  rfl

theorem Conn.view_of_none {c : Conn T} (h : c.tx = none) : c.view = c.server.store := by
  obtain ⟨otx, s⟩ := c
  cases h
  rfl

/-- The act starts or ends a transaction, or it is within `φ`. -/
def Act.Steps (φ : Change T) : Act T → Prop
  | .begin | .commit | .rollback => True
  | a => a.Within φ

theorem Act.Within.steps {φ : Change T} {a : Act T} (h : a.Within φ) : a.Steps φ := by
  cases a <;> first | exact h | trivial

theorem Act.Steps.cases {φ : Change T} {a : Act T} (ha : a.Steps φ) :
    a = .begin ∨ a = .commit ∨ a = .rollback ∨ a.Within φ := by
  cases a <;> first | exact .inr (.inr (.inr ha)) | simp

/-- Steps within `φ` are steps within a weaker condition. -/
theorem Act.Steps.mono {φ ψ : Change T}
    (h : ∀ t id old new evs, φ t id old new evs → ψ t id old new evs) {a : Act T}
    (ha : a.Steps φ) : a.Steps ψ := by
  rcases ha.cases with rfl | rfl | rfl | hw
  · trivial
  · trivial
  · trivial
  · exact (hw.mono h).steps

/-- A connection with no transaction, or with one that has done nothing yet. -/
def Conn.Clean (c : Conn T) : Prop := c.tx = none ∨ c.Begun

theorem Conn.Clean.view_eq {c : Conn T} (h : c.Clean) : c.view = c.server.store :=
  h.elim Conn.view_of_none Conn.Begun.view_eq

theorem Conn.Clean.notes {c : Conn T} (h : c.Clean) : c.notes = [] := by
  obtain ⟨otx, s⟩ := c
  rcases h with hnone | ⟨start, htx⟩
  · cases hnone
    rfl
  · cases htx
    rfl

/-- The connection after an event of its own. -/
def Conn.noted (c : Conn T) (e : Ev T) : Conn T :=
  ⟨c.tx.map fun tx => { tx with notes := tx.notes ++ [(none, e)] }, c.server⟩

theorem Act.step_note (p : Nat) (e : Ev T) (c : Conn T) :
    ((Act.note e).step p c).2 = c.noted e := by
  obtain ⟨otx, s⟩ := c
  cases otx <;> rfl

@[simp] theorem Conn.view_noted (c : Conn T) (e : Ev T) : (c.noted e).view = c.view := by
  obtain ⟨otx, s⟩ := c
  cases otx <;> rfl

@[simp] theorem Conn.server_noted (c : Conn T) (e : Ev T) : (c.noted e).server = c.server := rfl

/-- An event takes no lock. -/
theorem Conn.locked_noted {c : Conn T} {e : Ev T} {l : Key T × LockMode} :
    (∃ tx, (c.noted e).tx = some tx ∧ l ∈ tx.locks) ↔ ∃ tx, c.tx = some tx ∧ l ∈ tx.locks := by
  obtain ⟨otx, s⟩ := c
  cases otx with
  | none => exact Iff.rfl
  | some tx => simp [Conn.noted]

theorem Conn.owns_noted {c : Conn T} {e : Ev T} {k : Key T} : (c.noted e).Owns k ↔ c.Owns k := by
  obtain ⟨otx, s⟩ := c
  cases otx with
  | none => exact Iff.rfl
  | some tx => simp [Conn.noted, Conn.Owns, Tx.Owns]

theorem Conn.isSome_noted (c : Conn T) (e : Ev T) : (c.noted e).tx.isSome = c.tx.isSome := by
  obtain ⟨otx, s⟩ := c
  cases otx <;> rfl

theorem RowRel.noted {t : T} {ρ : Id t → Option (Row t) → Option (Row t) → Prop} {c : Conn T}
    (h : c.RowRel t ρ) (e : Ev T) : (c.noted e).RowRel t ρ := fun id => by
  rw [Conn.view_noted]
  exact h id

/-- The act is a step within `φ`, or leaves one of the events `N`. -/
def Act.Tells (φ : Change T) (N : Ev T → Prop) (a : Act T) : Prop :=
  a.Steps φ ∨ ∃ e, N e ∧ a = .note e

/-- The act is a step within `φ`, or leaves an event of its own. -/
abbrev Act.Speaks (φ : Change T) (a : Act T) : Prop := a.Tells φ fun _ => True

theorem Act.Steps.tells {φ : Change T} {N : Ev T → Prop} {a : Act T} (h : a.Steps φ) :
    a.Tells φ N := .inl h

theorem Act.Tells.mono {φ ψ : Change T} {N M : Ev T → Prop} {a : Act T} (h : a.Tells φ N)
    (hφ : ∀ t id old new evs, φ t id old new evs → ψ t id old new evs) (hN : ∀ e, N e → M e) :
    a.Tells ψ M :=
  h.imp (·.mono hφ) fun ⟨e, he, ha⟩ => ⟨e, hN e he, ha⟩

theorem Act.Tells.speaks {φ : Change T} {N : Ev T → Prop} {a : Act T} (h : a.Tells φ N) :
    a.Speaks φ := h.mono (fun _ _ _ _ _ h => h) fun _ _ => trivial

/-- **What survives a step survives an act that tells no more than `N`.** -/
theorem Act.Tells.keeps {φ : Change T} {N : Ev T → Prop} {R : Conn T → Prop} {p : Nat}
    (hframe : FrameClosed φ R) (hclean : ∀ c, c.Clean → R c)
    (hnote : ∀ c e, N e → R c → R (c.noted e)) {a : Act T} (ha : a.Tells φ N) {c : Conn T}
    (hc : R c) : R (a.step p c).2 := by
  rcases ha with hs | ⟨e, he, rfl⟩
  · rcases hs.cases with rfl | rfl | rfl | hw
    · exact hclean _ (.inr ⟨_, rfl⟩)
    · obtain ⟨otx, s⟩ := c
      cases otx <;> exact hclean _ (.inl rfl)
    · exact hclean _ (.inl rfl)
    · exact hframe c _ (hw.framed p c) hc
  · rw [Act.step_note]
    exact hnote c e he hc

/-- **A property that harmless programs carry along**: it holds of clean connections, survives
changes within `φ`, the events `N` and interference, and allows a commit. -/
structure Carried (J : Judge T) (φ : Change T) (R : Conn T → Prop)
    (N : Ev T → Prop := fun _ => True) : Prop where
  stable : J.Stable R
  frame : FrameClosed φ R
  clean : ∀ c, c.Clean → R c
  note : ∀ c e, N e → R c → R (c.noted e)
  guar : ∀ c, J.base c → R c → J.guar c

section Carried

variable {J : Judge T} {p : Nat} {φ : Change T} {N : Ev T → Prop} {R : Conn T → Prop}

/-- What is carried along is kept by every harmless act. -/
theorem Carried.step (h : Carried J φ R N) {a : Act T} (ha : a.Tells φ N) {c : Conn T} (hc : R c) :
    R (a.step p c).2 :=
  ha.keeps h.frame h.clean h.note hc

/-- **Programs that make harmless changes only** keep what is carried along. -/
theorem Triple.speaks {m : Prog T ε α} (h : Carried J φ R N) (hm : m.All (Act.Tells φ N)) :
    Triple J p R m fun _ => R :=
  Triple.of_all h.stable (fun _ ha c hb hc => ⟨fun _ => h.guar c hb hc, h.step ha hc⟩) hm

end Carried

/-! ## Stability under a contract

The assertions that the proofs about programs use most, with the reason why the others leave them
alone.
-/

namespace Contract

variable {K : Contract T} {p : Nat}

/-- A contract that knows every connection to be well formed. -/
def WellFormed (K : Contract T) : Prop := ∀ p c, K.base p c → c.Wf

theorem WellFormed.commits (hK : K.WellFormed) : ∀ q c, K.Commits q c → c.Wf :=
  fun q c h => hK q c h.1

theorem private_judge : (K.judge p).Private := fun _ _ hr => hr.2.2.2.2.tx_eq

theorem stable_tx (P : Option (Tx T) → Prop) : (K.judge p).Stable fun c => P c.tx :=
  private_judge.stable P

theorem stable_rowRel (hK : K.WellFormed) {t : T}
    {ρ : Id t → Option (Row t) → Option (Row t) → Prop} (hrefl : ∀ id v, ρ id v v) :
    (K.judge p).Stable fun c => c.RowRel t ρ :=
  fun _ _ hr hc => RowRel.interferes hrefl (hK p _ hr.1) hK.commits hc hr.2.2.2.2

/-- **A reflexive row relation that the changes within `φ` extend** is carried along, if it is
what a commit owes. -/
theorem carried_rowRel (hK : K.WellFormed) {t : T} {φ : Change T}
    {ρ : Id t → Option (Row t) → Option (Row t) → Prop} (hrefl : ∀ id v, ρ id v v)
    (hφ : ∀ id old v v' evs, φ t id v v' evs → Allowed t id v v' evs → ρ id old v → ρ id old v')
    (hguar : ∀ c, (K.judge p).base c → c.RowRel t ρ → (K.judge p).guar c) :
    Carried (K.judge p) φ fun c => c.RowRel t ρ where
  stable := stable_rowRel hK hrefl
  frame _ _ hf hc := RowRel.framed hφ hc hf
  clean c hc := RowRel.of_view_eq hrefl fun id => by rw [hc.view_eq]
  note _ e _ hc := RowRel.noted hc e
  guar := hguar

/-- **What a connection reads in a row it owns stays as it is.** -/
theorem stable_owned (hK : K.WellFormed) {t : T} {id : Id t} (φ : Option (Row t) → Prop) :
    (K.judge p).Stable fun c => c.Owns ⟨t, id⟩ ∧ φ (c.view.get t id) := by
  intro c c' hr h
  refine ⟨hr.2.2.2.2.owns h.1, ?_⟩
  rw [(hr.2.2.2.2.get_of_owns hK.commits h.1).2]
  exact h.2

end Contract

end ReadCommitted
