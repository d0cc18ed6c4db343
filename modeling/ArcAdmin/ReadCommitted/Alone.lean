import ArcAdmin.ReadCommitted.Sequential

/-!
# What a statement does when nobody else acts

A program that runs alone is a function of the tables it starts from. The lemmas here say what each
statement returns and what the tables look like afterwards, row by row; what a statement has nothing
to do with is left as it was (`Spared`).

* **`Update.ends`**, **`Delete.ends`**, **`Insert.ends`**, **`ends_references`** — the statements;
* **`Prog.Atomic`** — a failing run has not committed anything.
-/

namespace ReadCommitted

open Schema (Id Row Ev serialNo clash Allowed)

variable {T : Type} [Schema T] {ε α β : Type} {p : Nat}

/-! ## Runs

A run is deterministic, so what is known to be the result is the only one.
-/

/-- **A run alone has one outcome.** -/
theorem Ends.iff {m : Prog T ε α} {c c₁ c₂ : Conn T} {a b : α} (h : Ends p m c a c₁) :
    Ends p m c b c₂ ↔ b = a ∧ c₂ = c₁ := by
  have hrun : m.run p c = (.ok a, c₁) := h
  unfold Ends
  rw [hrun]
  constructor
  · intro heq
    cases heq
    exact ⟨rfl, rfl⟩
  · rintro ⟨rfl, rfl⟩
    rfl

/-- An event of the program's own. -/
@[simp] theorem ends_noteEvent {e : Ev T} {c c' : Conn T} {p : Nat} {u : Unit} :
    Ends p (noteEvent e : Prog T ε Unit) c u c' ↔ c' = c.noted e := by
  rw [← Act.step_note p]
  exact ends_perform.trans (and_iff_right rfl)

/-- What comes after a part whose run is known. -/
theorem ends_bind_of {m : Prog T ε α} {f : α → Prog T ε β} {c c₁ c' : Conn T} {a : α} {b : β}
    (h : Ends p m c a c₁) : Ends p (m >>= f) c b c' ↔ Ends p (f a) c₁ b c' := by
  rw [ends_bind]
  constructor
  · rintro ⟨_, _, hm, hf⟩
    obtain ⟨rfl, rfl⟩ := h.iff.1 hm
    exact hf
  · exact fun hf => ⟨a, c₁, h, hf⟩

theorem Conn.Wf.run {c : Conn T} (h : c.Wf) (p : Nat) (m : Prog T ε α) : (m.run p c).2.Wf := by
  induction m generalizing c with
  | ret a => exact h
  | fail e => exact h.effect (p := p) (.rollback c)
  | act a k ih => exact ih _ (h.effect (a.step_effect p c))

theorem Ends.wf {m : Prog T ε α} {c c' : Conn T} {a : α} (h : Ends p m c a c') (hwf : c.Wf) :
    c'.Wf := by
  have hrun : m.run p c = (.ok a, c') := h
  have hend := hwf.run p m
  rwa [hrun] at hend

/-- The number that is drawn next is in no key that the connection sees. -/
theorem Conn.Wf.view_undrawn {c : Conn T} (h : c.Wf) {t : T} {id : Id t}
    (hid : serialNo t id = some c.server.seq) : c.view.get t id = none := by
  obtain ⟨otx, s⟩ := c
  refine Option.eq_none_iff_forall_not_mem.2 fun r hr => ?_
  have hdrawn : Key.Drawn ⟨t, id⟩ s.seq := by
    cases otx with
    | none => exact h.1.store_drawn t id r hr
    | some tx => exact (h.2 tx rfl).view_drawn h.1 hr
  exact Nat.lt_irrefl _ (hdrawn s.seq hid)

theorem Server.Wf.begun {s : Server T} (h : s.Wf) : (⟨none, s⟩ : Conn T).begun.Wf := by
  have hconn : (⟨none, s⟩ : Conn T).Wf := ⟨h, fun tx htx => by cases htx⟩
  have hbegin : Ends 0 (beginTx : Prog T Unit Unit) ⟨none, s⟩ () (⟨none, s⟩ : Conn T).begun :=
    ends_beginTx.2 rfl
  exact hbegin.wf hconn

/-! ## What a program has nothing to do with

Frames for runs that are alone. They follow from footprints, which do not depend on interference.
-/

/-- **Between `c` and `c'` only tables that `φ` lets change may have changed**, and nothing was
committed. -/
structure Spared (φ : Change T) (c c' : Conn T) : Prop where
  store : c'.server.store = c.server.store
  log : c'.server.log = c.server.log
  clock : c'.server.clock = c.server.clock
  now : c'.now = c.now
  isOpen : c'.tx.isSome = c.tx.isSome
  table : ∀ t, Frozen φ t → c'.view t = c.view t

namespace Spared

variable {φ ψ : Change T} {c c' d : Conn T}

theorem refl (c : Conn T) : Spared φ c c := ⟨rfl, rfl, rfl, rfl, rfl, fun _ _ => rfl⟩

theorem trans (h : Spared φ c c') (h' : Spared φ c' d) : Spared φ c d where
  store := h'.store.trans h.store
  log := h'.log.trans h.log
  clock := h'.clock.trans h.clock
  now := h'.now.trans h.now
  isOpen := h'.isOpen.trans h.isOpen
  table := fun t ht => (h'.table t ht).trans (h.table t ht)

theorem mono (h : Spared φ c c') (hφ : ∀ t id old new evs, φ t id old new evs → ψ t id old new evs) :
    Spared ψ c c' :=
  { h with table := fun t ht => h.table t fun _ _ _ _ hc => ht _ _ _ _ (hφ _ _ _ _ _ hc) }

theorem view_get (h : Spared φ c c') {t : T} (ht : Frozen φ t) (id : Id t) :
    c'.view.get t id = c.view.get t id := by
  unfold Store.get
  rw [h.table t ht]

theorem view_rows (h : Spared φ c c') {t : T} (ht : Frozen φ t) :
    c'.view.rows t = c.view.rows t := by
  unfold Store.rows
  rw [h.table t ht]

/-- An event of the program's own changes no table. -/
theorem noted (c : Conn T) (e : Ev T) : Spared φ c (c.noted e) where
  store := rfl
  log := rfl
  clock := rfl
  now := by
    obtain ⟨otx, s⟩ := c
    cases otx <;> rfl
  isOpen := Conn.isSome_noted c e
  table t _ := by rw [Conn.view_noted]

theorem tx_none (h : Spared φ c c') (hnone : c.tx = none) : c'.tx = none := by
  have hopen := h.isOpen
  rw [hnone] at hopen
  exact Option.not_isSome_iff_eq_none.1 (by simp [hopen])

/-- A program that changes no table. -/
theorem view_eq (h : Spared (tables []) c c') : c'.view = c.view :=
  funext fun t => h.table t (frozen_tables (by simp))

theorem of_framed (h : Framed φ c c') : Spared φ c c' where
  store := h.store
  log := h.log
  clock := h.clock
  now := by
    obtain ⟨otx, s⟩ := c
    obtain ⟨otx', s'⟩ := c'
    rcases h.tx with ⟨hnone, hnone'⟩ | ⟨tx, tx', htx, htx', _, hstart, _⟩
    · cases hnone
      cases hnone'
      exact h.clock
    · cases htx
      cases htx'
      exact hstart
  isOpen := h.isSome.symm
  table := h.table

end Spared

/-- **A program within `φ`** spares what `φ` does not let change. -/
theorem Ends.spared {φ : Change T} {m : Prog T ε α} {c c' : Conn T} {a : α} (h : Ends p m c a c')
    (hm : m.All (Act.Within φ)) : Spared φ c c' := by
  have hclosed : FrameClosed φ (Spared φ c) := fun d d' hf hd => hd.trans (.of_framed hf)
  have htriple : Triple Judge.alone p (Spared φ c) m fun _ => Spared φ c :=
    Triple.within (Judge.stable_alone _) hclosed hm
  exact htriple.ends (.refl c) h

/-- A row that `φ` does not let change, as it is, stays. -/
theorem Ends.get_eq {φ : Change T} {m : Prog T ε α} {c c' : Conn T} {a : α} (h : Ends p m c a c')
    (hm : m.All (Act.Within φ)) {t : T} {id : Id t}
    (hno : ∀ new evs, ¬φ t id (c.view.get t id) new evs) :
    c'.view.get t id = c.view.get t id := by
  have hclosed : FrameClosed φ fun d => d.view.get t id = c.view.get t id := by
    intro d d' hf hd
    rcases hf.row t id with hsame | ⟨evs, hchange, _⟩
    · rw [hsame, hd]
    · rw [hd] at hchange
      exact absurd hchange (hno _ evs)
  have htriple : Triple Judge.alone p (fun d => d.view.get t id = c.view.get t id) m
      fun _ d => d.view.get t id = c.view.get t id :=
    Triple.within (Judge.stable_alone _) hclosed hm
  exact htriple.ends rfl h

/-- A query spares everything. -/
theorem Ends.spared_nothing {m : Prog T ε α} {c c' : Conn T} {a : α} (h : Ends p m c a c')
    (hm : ∀ φ : Change T, m.All (Act.Within φ)) : Spared (tables []) c c' :=
  h.spared (hm _)

/-! ## Transactions

What a transaction starts from, and what its commit leaves.
-/

@[simp] theorem Conn.view_begun (c : Conn T) : c.begun.view = c.server.store := rfl

@[simp] theorem Conn.isSome_begun (c : Conn T) : c.begun.tx.isSome = true := rfl

@[simp] theorem Conn.server_begun (c : Conn T) : c.begun.server = c.server := rfl

@[simp] theorem Conn.now_begun (c : Conn T) : c.begun.now = c.server.clock := rfl

@[simp] theorem Conn.drawn_store (c : Conn T) : c.drawn.server.store = c.server.store := rfl

@[simp] theorem Conn.drawn_view (c : Conn T) : c.drawn.view = c.view := by
  obtain ⟨otx, s⟩ := c
  cases otx <;> rfl

@[simp] theorem Conn.drawn_tx (c : Conn T) : c.drawn.tx = c.tx := rfl

/-- **`COMMIT`** makes what the transaction sees the committed state. -/
theorem commitTx_ends {c : Conn T} (hopen : c.tx.isSome) : ∃ c',
    Ends p (commitTx : Prog T ε Unit) c () c' ∧ c'.tx = none ∧ c'.server.store = c.view ∧
      c'.server.clock = c.server.clock := by
  obtain ⟨otx, s⟩ := c
  obtain ⟨tx, rfl⟩ := Option.isSome_iff_exists.1 hopen
  exact ⟨⟨none, s.commit p tx⟩, (ends_commitTx rfl).2 rfl, rfl, rfl, rfl⟩

/-! ## Statements

Alone, each row that a statement visits is still as it was selected. So the result is a function
of the snapshot, row by row.
-/

section Statements

variable {t : T}

/-- The rows that a statement selects, with their keys. -/
def Snapshot.selected (s : Snapshot T) (t : T) (cond : Id t → Row t → Bool) :
    List (Id t × Row t) :=
  (s.store.rows t).filter fun e => cond e.1 e.2

theorem Snapshot.matching_eq (s : Snapshot T) (cond : Id t → Row t → Bool) :
    s.matching t cond = (s.selected t cond).map Prod.fst := rfl

theorem Snapshot.mem_selected {s : Snapshot T} {cond : Id t → Row t → Bool} {e : Id t × Row t} :
    e ∈ s.selected t cond ↔ s.store.get t e.1 = some e.2 ∧ cond e.1 e.2 = true := by
  rw [Snapshot.selected, List.mem_filter]
  exact and_congr_left fun _ => Store.mem_rows

theorem Snapshot.selected_nodup (s : Snapshot T) (cond : Id t → Row t → Bool) :
    ((s.selected t cond).map Prod.fst).Nodup :=
  (List.filter_sublist.map Prod.fst).nodup (Store.rows_keys_nodup s.store t)

/-- The keys that a statement selects. -/
theorem Snapshot.mem_matching {s : Snapshot T} {cond : Id t → Row t → Bool} {id : Id t} :
    id ∈ s.matching t cond ↔ ∃ r, s.store.get t id = some r ∧ cond id r = true := by
  rw [Snapshot.matching_eq, List.mem_map]
  constructor
  · rintro ⟨e, he, rfl⟩
    exact ⟨e.2, Snapshot.mem_selected.1 he⟩
  · rintro ⟨r, hr⟩
    exact ⟨(id, r), Snapshot.mem_selected.2 hr, rfl⟩

theorem Snapshot.selected_eq_singleton {s : Snapshot T} {cond : Id t → Row t → Bool} {id : Id t}
    {r : Row t} (hr : s.store.get t id = some r) (hcond : cond id r = true)
    (hone : ∀ i r', cond i r' = true → i = id) : s.selected t cond = [(id, r)] := by
  have hmatch : (s.selected t cond).map Prod.fst = [id] :=
    Snapshot.matching_eq_singleton hr hcond fun i r' _ hi => hone i r' hi
  obtain ⟨e, he, hid⟩ := List.map_eq_singleton_iff.1 hmatch
  have hmem : e ∈ s.selected t cond := by rw [he]; exact List.mem_singleton.2 rfl
  have hrow := (Snapshot.mem_selected.1 hmem).1
  rw [hid, hr] at hrow
  rw [he, ← hid, Option.some.inj hrow]

theorem Snapshot.selected_eq_nil {s : Snapshot T} {cond : Id t → Row t → Bool}
    (hnone : ∀ i r, s.store.get t i = some r → cond i r = false) : s.selected t cond = [] :=
  List.map_eq_nil_iff.1 (Snapshot.matching_eq_nil hnone)

/-- The rows after the first one of a list without repeated keys. -/
theorem rows_tail {e : Id t × Row t} {l : List (Id t × Row t)} (σ σ' : Store T)
    (hnodup : ((e :: l).map Prod.fst).Nodup) (hl : ∀ f ∈ e :: l, σ.get t f.1 = some f.2)
    (hσ : ∀ id, id ≠ e.1 → σ'.get t id = σ.get t id) : ∀ f ∈ l, σ'.get t f.1 = some f.2 := by
  intro f hf
  have hne : f.1 ≠ e.1 := by
    intro heq
    have hnot := (List.nodup_cons.1 hnodup).1
    rw [← heq] at hnot
    exact hnot (List.mem_map_of_mem hf)
  rw [hσ f.1 hne]
  exact hl f (List.mem_cons_of_mem _ hf)

/-- Visiting rows that are as the statement selected them. -/
theorem Update.visit_ends (u : Update T t) (s : Snapshot T) {l : List (Id t × Row t)}
    (hnodup : (l.map Prod.fst).Nodup) (hcond : ∀ e ∈ l, u.cond s e.1 e.2 = true) {c : Conn T}
    (hopen : c.tx.isSome) (hl : ∀ e ∈ l, c.view.get t e.1 = some e.2) : ∃ c',
    Ends p (visit (l.map Prod.fst) fun id =>
        Prog.perform (.update t id (u.cond s id) (u.set s) (u.evs s) (u.ok s id)) :
          Prog T ε (List (Row t))) c (l.map fun e => u.set s e.2) c' ∧
      ∀ id, c'.view.get t id =
        if id ∈ l.map Prod.fst then (c.view.get t id).map (u.set s) else c.view.get t id := by
  induction l generalizing c with
  | nil => exact ⟨c, ends_ret.2 ⟨rfl, rfl⟩, fun id => by simp⟩
  | cons e l ih =>
    obtain ⟨otx, srv⟩ := c
    obtain ⟨tx, rfl⟩ := Option.isSome_iff_exists.1 hopen
    have hrow : (tx.view srv.store).get t e.1 = some e.2 := hl e List.mem_cons_self
    have hsat : u.cond s e.1 e.2 = true := hcond e List.mem_cons_self
    -- the first row is changed, the others are as they were
    let tx₁ := tx.write t e.1 .noKeyUpdate (some (u.set s e.2)) (u.evs s e.2)
    have hfirst : Ends p (Prog.perform
        (.update t e.1 (u.cond s e.1) (u.set s) (u.evs s) (u.ok s e.1)) : Prog T ε _)
        ⟨some tx, srv⟩ (some (u.set s e.2)) ⟨some tx₁, srv⟩ := by
      refine ends_perform.2 ⟨?_, by simp [Act.step, hrow, hsat, tx₁]⟩
      simp only [Act.step, Conn.view_some, hrow, hsat, if_true]
      rfl
    have hview : ∀ id, (tx₁.view srv.store).get t id =
        if id = e.1 then some (u.set s e.2) else (tx.view srv.store).get t id := by
      intro id
      rw [Tx.view_write, Store.get_set]
    have hrest := rows_tail (tx.view srv.store) (tx₁.view srv.store) hnodup hl
      fun id hne => by rw [hview id, if_neg hne]
    obtain ⟨c', hends, hget⟩ := ih (List.nodup_cons.1 hnodup).2
      (fun f hf => hcond f (List.mem_cons_of_mem _ hf)) (c := ⟨some tx₁, srv⟩) rfl hrest
    refine ⟨c', ends_bind.2 ⟨_, _, hfirst, ends_bind.2 ⟨_, _, hends, ends_ret.2 ⟨rfl, rfl⟩⟩⟩,
      fun id => ?_⟩
    rw [hget id, Conn.view_some, Conn.view_some, hview id, List.map_cons]
    by_cases hid : id = e.1
    · subst hid
      have hnot : ¬ e.1 ∈ l.map Prod.fst := (List.nodup_cons.1 hnodup).1
      rw [if_neg hnot, if_pos rfl, if_pos List.mem_cons_self, hrow, Option.map_some]
    · have hmem : id ∈ e.1 :: l.map Prod.fst ↔ id ∈ l.map Prod.fst := by simp [hid]
      rw [if_neg hid]
      exact if_congr hmem.symm rfl rfl

/-- The rows that an `UPDATE` returns. -/
def Update.rows (u : Update T t) (s : Snapshot T) : List (Row t) :=
  (s.selected t (u.cond s)).map fun e => u.set s e.2

/-- **`UPDATE`** changes the rows that satisfy its condition. -/
theorem Update.ends (u : Update T t) {c : Conn T} (hopen : c.tx.isSome) : ∃ c',
    Ends p (u.exec : Prog T ε _) c (u.rows c.snapshot) c' ∧ Spared (tables [t]) c c' ∧
      ∀ id, c'.view.get t id = (c.view.get t id).map fun r =>
        if u.cond c.snapshot id r then u.set c.snapshot r else r := by
  have hsel : ∀ e ∈ c.snapshot.selected t (u.cond c.snapshot),
      c.view.get t e.1 = some e.2 ∧ u.cond c.snapshot e.1 e.2 = true :=
    fun e he => Snapshot.mem_selected.1 he
  obtain ⟨c', hvisit, hget⟩ := u.visit_ends (ε := ε) (p := p) c.snapshot
    (c.snapshot.selected_nodup _) (fun e he => (hsel e he).2) hopen fun e he => (hsel e he).1
  have hends : Ends p (u.exec : Prog T ε _) c (u.rows c.snapshot) c' :=
    ends_bind.2 ⟨_, _, ends_query.2 ⟨rfl, rfl⟩, hvisit⟩
  have hwithin : (u.exec : Prog T ε _).All (Act.Within (tables [t])) :=
    Prog.All.update (fun _ _ _ _ => List.mem_singleton.2 rfl) trivial
  refine ⟨c', hends, hends.spared hwithin, fun id => ?_⟩
  rw [hget id, ← Snapshot.matching_eq]
  cases hr : c.view.get t id with
  | none => simp
  | some r =>
    have hmem : id ∈ c.snapshot.matching t (u.cond c.snapshot) ↔ u.cond c.snapshot id r = true := by
      rw [Snapshot.mem_matching]
      have hr' : c.snapshot.store.get t id = some r := hr
      simp [hr']
    by_cases hcond : u.cond c.snapshot id r = true
    · rw [if_pos (hmem.2 hcond), Option.map_some, Option.map_some, if_pos hcond]
    · rw [if_neg (fun h => hcond (hmem.1 h)), Option.map_some, if_neg hcond]

/-- Visiting rows that are as the statement selected them. -/
theorem Delete.visit_ends (d : Delete T t) (s : Snapshot T) {l : List (Id t × Row t)}
    (hnodup : (l.map Prod.fst).Nodup) (hcond : ∀ e ∈ l, d.cond s e.1 e.2 = true)
    (hseen : ∀ e ∈ l, d.seen s e.1 e.2 = true) {c : Conn T}
    (hopen : c.tx.isSome) (hl : ∀ e ∈ l, c.view.get t e.1 = some e.2) : ∃ c',
    Ends p (visit (l.map Prod.fst) fun id => do
        let gone : Bool ← Prog.perform (.delete t id (d.seen s id) (d.cond s id) (d.ok s id))
        return if gone then some id else none : Prog T ε (List (Id t))) c (l.map Prod.fst) c' ∧
      ∀ id, c'.view.get t id = if id ∈ l.map Prod.fst then none else c.view.get t id := by
  induction l generalizing c with
  | nil => exact ⟨c, ends_ret.2 ⟨rfl, rfl⟩, fun id => by simp⟩
  | cons e l ih =>
    obtain ⟨otx, srv⟩ := c
    obtain ⟨tx, rfl⟩ := Option.isSome_iff_exists.1 hopen
    have hrow : (tx.view srv.store).get t e.1 = some e.2 := hl e List.mem_cons_self
    have hsat : d.cond s e.1 e.2 = true := hcond e List.mem_cons_self
    have hsel : d.seen s e.1 e.2 = true := hseen e List.mem_cons_self
    let tx₁ := tx.write t e.1 .update none []
    -- the first row is there and satisfies the condition, so it goes
    have hfirst : Ends p (do
        let gone : Bool ← Prog.perform (.delete t e.1 (d.seen s e.1) (d.cond s e.1) (d.ok s e.1))
        return if gone then some e.1 else none : Prog T ε (Option (Id t)))
        ⟨some tx, srv⟩ (some e.1) ⟨some tx₁, srv⟩ := by
      have hfilter : ((tx.view srv.store).get t e.1).filter (d.seen s e.1) = some e.2 := by
        simp [hrow, hsel]
      refine ends_bind.2 ⟨true, ⟨some tx₁, srv⟩, ends_perform.2 ⟨?_, ?_⟩, ends_ret.2 ⟨rfl, rfl⟩⟩
      · simp only [Act.step, Conn.view_some, hfilter, hsat, if_true]
        rfl
      · simp [Act.step, hfilter, hsat, tx₁]
    have hview : ∀ id, (tx₁.view srv.store).get t id =
        if id = e.1 then none else (tx.view srv.store).get t id := by
      intro id
      rw [Tx.view_write, Store.get_set]
    -- the rows behind it are other rows, and still there
    have hrest := rows_tail (tx.view srv.store) (tx₁.view srv.store) hnodup hl
      fun id hne => by rw [hview id, if_neg hne]
    obtain ⟨c', hends, hget⟩ := ih (List.nodup_cons.1 hnodup).2
      (fun f hf => hcond f (List.mem_cons_of_mem _ hf))
      (fun f hf => hseen f (List.mem_cons_of_mem _ hf)) (c := ⟨some tx₁, srv⟩) rfl hrest
    refine ⟨c', ends_bind.2 ⟨_, _, hfirst, ends_bind.2 ⟨_, _, hends, ends_ret.2 ⟨rfl, rfl⟩⟩⟩,
      fun id => ?_⟩
    rw [hget id, Conn.view_some, Conn.view_some, hview id, List.map_cons]
    by_cases hid : id = e.1
    · subst hid
      simp
    · have hmem : id ∈ e.1 :: l.map Prod.fst ↔ id ∈ l.map Prod.fst := by simp [hid]
      rw [if_neg hid]
      exact if_congr hmem.symm rfl rfl

/-- **`DELETE`** removes the rows that satisfy its condition. -/
theorem Delete.ends (d : Delete T t) {c : Conn T} (hopen : c.tx.isSome)
    (hseen : ∀ id r, c.view.get t id = some r → d.seen c.snapshot id r = true) : ∃ c',
    Ends p (d.exec : Prog T ε _) c (c.snapshot.matching t (d.cond c.snapshot)) c' ∧
      Spared (tables [t]) c c' ∧
      ∀ id, c'.view.get t id = (c.view.get t id).filter fun r => !d.cond c.snapshot id r := by
  have hsel : ∀ e ∈ c.snapshot.selected t (d.cond c.snapshot),
      c.view.get t e.1 = some e.2 ∧ d.cond c.snapshot e.1 e.2 = true :=
    fun e he => Snapshot.mem_selected.1 he
  obtain ⟨c', hvisit, hget⟩ := d.visit_ends (ε := ε) (p := p) c.snapshot
    (c.snapshot.selected_nodup _) (fun e he => (hsel e he).2)
    (fun e he => hseen _ _ (hsel e he).1) hopen fun e he => (hsel e he).1
  have hends : Ends p (d.exec : Prog T ε _) c (c.snapshot.matching t (d.cond c.snapshot)) c' :=
    ends_bind.2 ⟨_, _, ends_query.2 ⟨rfl, rfl⟩, hvisit⟩
  have hwithin : (d.exec : Prog T ε _).All (Act.Within (tables [t])) :=
    Prog.All.delete (fun _ _ _ _ => List.mem_singleton.2 rfl) trivial
  refine ⟨c', hends, hends.spared hwithin, fun id => ?_⟩
  rw [hget id, ← Snapshot.matching_eq]
  cases hr : c.view.get t id with
  | none => simp
  | some r =>
    have hmem : id ∈ c.snapshot.matching t (d.cond c.snapshot) ↔ d.cond c.snapshot id r = true := by
      rw [Snapshot.mem_matching]
      have hr' : c.snapshot.store.get t id = some r := hr
      simp [hr']
    by_cases hcond : d.cond c.snapshot id r = true
    · rw [if_pos (hmem.2 hcond), Option.filter_some, if_neg (by simp [hcond])]
    · rw [if_neg (fun h => hcond (hmem.1 h)), Option.filter_some, if_pos (by simpa using hcond)]

/-- Locking rows that are as the statement selected them. -/
theorem lock_visit_ends (s : Snapshot T) (cond : Snapshot T → Id t → Row t → Bool)
    {l : List (Id t × Row t)} (hcond : ∀ e ∈ l, cond s e.1 e.2 = true) {c : Conn T}
    (hopen : c.tx.isSome) (hl : ∀ e ∈ l, c.view.get t e.1 = some e.2) : ∃ c',
    Ends p (visit (l.map Prod.fst) fun id => do
        let row : Option (Row t) ← Prog.perform (.lock t id .update (cond s id))
        return row.map fun r => (id, r) : Prog T ε (List (Id t × Row t))) c l c' := by
  induction l generalizing c with
  | nil => exact ⟨c, ends_ret.2 ⟨rfl, rfl⟩⟩
  | cons e l ih =>
    obtain ⟨otx, srv⟩ := c
    obtain ⟨tx, rfl⟩ := Option.isSome_iff_exists.1 hopen
    have hrow : (tx.view srv.store).get t e.1 = some e.2 := hl e List.mem_cons_self
    have hsat : cond s e.1 e.2 = true := hcond e List.mem_cons_self
    let c₁ : Conn T := ⟨some (tx.acquire ⟨t, e.1⟩ .update), srv⟩
    have hfirst : Ends p (do
        let row : Option (Row t) ← Prog.perform (.lock t e.1 .update (cond s e.1))
        return row.map fun r => (e.1, r) : Prog T ε (Option (Id t × Row t)))
        ⟨some tx, srv⟩ (some e) c₁ := by
      refine ends_bind.2 ⟨some e.2, c₁, ends_perform.2 ⟨?_, ?_⟩, ends_ret.2 ⟨rfl, rfl⟩⟩
      · simp only [Act.step, Conn.view_some, hrow, hsat]
        rfl
      · simp [Act.step, hrow, c₁]
    obtain ⟨c', hends⟩ := ih (fun f hf => hcond f (List.mem_cons_of_mem _ hf)) (c := c₁) rfl
      fun f hf => hl f (List.mem_cons_of_mem _ hf)
    exact ⟨c', ends_bind.2 ⟨_, _, hfirst, ends_bind.2 ⟨_, _, hends, ends_ret.2 ⟨rfl, rfl⟩⟩⟩⟩

/-- **`SELECT … FOR UPDATE`** returns the rows that satisfy its condition. -/
theorem selectForUpdate_ends (cond : Snapshot T → Id t → Row t → Bool) {c : Conn T}
    (hopen : c.tx.isSome) : ∃ c', Ends p (selectForUpdate t cond : Prog T ε _) c
      (c.snapshot.selected t (cond c.snapshot)) c' ∧ Spared (tables []) c c' := by
  have hsel : ∀ e ∈ c.snapshot.selected t (cond c.snapshot),
      c.view.get t e.1 = some e.2 ∧ cond c.snapshot e.1 e.2 = true :=
    fun e he => Snapshot.mem_selected.1 he
  obtain ⟨c', hvisit⟩ := lock_visit_ends (ε := ε) (p := p) c.snapshot cond
    (fun e he => (hsel e he).2) hopen fun e he => (hsel e he).1
  have hends : Ends p (selectForUpdate t cond : Prog T ε _) c
      (c.snapshot.selected t (cond c.snapshot)) c' :=
    ends_bind.2 ⟨_, _, ends_query.2 ⟨rfl, rfl⟩, hvisit⟩
  exact ⟨c', hends, hends.spared (Prog.All.selectForUpdate (fun _ _ => trivial) trivial)⟩

/-- **`INSERT`** adds a row, unless its key or a unique index is taken. -/
theorem Insert.ends (i : Insert T t) {dup : ε} {c : Conn T} (hopen : c.tx.isSome)
    (hfree : c.view.blocks t (i.key c.server.seq) (i.row c.server.seq) = false) : ∃ c',
    Ends p (i.exec dup) c (i.key c.server.seq) c' ∧ Spared (tables [t]) c c' ∧
      ∀ id, c'.view.get t id =
        if id = i.key c.server.seq then some (i.row c.server.seq) else c.view.get t id := by
  obtain ⟨otx, s⟩ := c
  obtain ⟨tx, rfl⟩ := Option.isSome_iff_exists.1 hopen
  have hfree' : (tx.view s.store).blocks t (i.key s.seq) (i.row s.seq) = false := hfree
  let c' : Conn T := ⟨some (tx.write t (i.key s.seq) .update (some (i.row s.seq)) (i.evs s.seq)),
    { s with seq := s.seq + 1 }⟩
  have hends : Ends p (i.exec dup) ⟨some tx, s⟩ (i.key s.seq) c' := by
    refine ends_bind.2 ⟨some (i.key s.seq), c', ends_perform.2 ⟨?_, ?_⟩, ends_okOr.2 ⟨rfl, rfl⟩⟩
    · simp only [Act.step, Conn.view_some, hfree', Bool.false_eq_true, if_false]
      rfl
    · simp [Act.step, hfree', c']
  have hwithin : (i.exec dup).All (Act.Within (tables [t])) :=
    Prog.All.insert fun _ => List.mem_singleton.2 rfl
  refine ⟨c', hends, hends.spared hwithin, fun id => ?_⟩
  simp only [c', Conn.view_some, Tx.view_write, Store.get_set]

theorem Insert.free_of_ends {i : Insert T t} {dup : ε} {c c' : Conn T} {id : Id t}
    (h : Ends p (i.exec dup) c id c') :
    c.tx.isSome ∧ c.view.blocks t (i.key c.server.seq) (i.row c.server.seq) = false := by
  obtain ⟨key, c₁, hact, hkey⟩ := ends_bind.1 h
  obtain ⟨rfl, _⟩ := ends_okOr.1 hkey
  obtain ⟨hres, _⟩ := ends_perform.1 hact
  obtain ⟨otx, s⟩ := c
  cases otx with
  | none => simp [Act.step] at hres
  | some tx =>
    refine ⟨rfl, ?_⟩
    by_contra hblocks
    have hblocks' : (tx.view s.store).blocks t (i.key s.seq) (i.row s.seq) = true := by
      simpa using hblocks
    simp [Act.step, hblocks'] at hres

/-- **What an `INSERT` has done.** -/
theorem Insert.of_ends {i : Insert T t} {dup : ε} {c c' : Conn T} {id : Id t}
    (h : Ends p (i.exec dup) c id c') :
    c.tx.isSome ∧ c.view.get t id = none ∧ id = i.key c.server.seq ∧ Spared (tables [t]) c c' ∧
      ∀ j, c'.view.get t j = if j = id then some (i.row c.server.seq) else c.view.get t j := by
  obtain ⟨hopen, hfree⟩ := Insert.free_of_ends h
  obtain ⟨c₁, hends, hspared, hget⟩ : ∃ c₁, Ends p (i.exec dup) c (i.key c.server.seq) c₁ ∧
      Spared (tables [t]) c c₁ ∧ ∀ j, c₁.view.get t j =
        if j = i.key c.server.seq then some (i.row c.server.seq) else c.view.get t j :=
    i.ends hopen hfree
  obtain ⟨rfl, rfl⟩ := hends.iff.1 h
  exact ⟨hopen, Store.get_of_blocks hfree, rfl, hspared, hget⟩

/-- **`REFERENCES`** passes if and only if there is such a row. -/
theorem ends_references {id : Id t} {cond : Row t → Bool} {missing : ε} {c : Conn T}
    (hopen : c.tx.isSome) :
    (∃ c', Ends p (references t id cond missing) c () c') ↔
      ∃ r, c.view.get t id = some r ∧ cond r = true := by
  obtain ⟨otx, s⟩ := c
  obtain ⟨tx, rfl⟩ := Option.isSome_iff_exists.1 hopen
  constructor
  · rintro ⟨c', h⟩
    obtain ⟨row, c₁, hact, hrej⟩ := ends_bind.1 h
    obtain ⟨hres, _⟩ := ends_perform.1 hact
    have hsome : row.isNone = false := (ends_reject.1 hrej).1
    cases hr : (tx.view s.store).get t id with
    | none =>
      simp only [Act.step, Conn.view_some, hr] at hres
      rw [hres] at hsome
      cases hsome
    | some r =>
      refine ⟨r, hr, ?_⟩
      by_contra hcond
      simp only [Act.step, Conn.view_some, hr] at hres
      have hnone : row = none := hres.trans (if_neg hcond)
      rw [hnone] at hsome
      cases hsome
  · rintro ⟨r, hr, hcond⟩
    have hr' : (tx.view s.store).get t id = some r := hr
    refine ⟨⟨some (tx.acquire ⟨t, id⟩ .keyShare), s⟩, ends_bind.2 ⟨some r, _,
      ends_perform.2 ⟨?_, ?_⟩, ends_reject.2 ⟨rfl, rfl⟩⟩⟩
    · simp only [Act.step, Conn.view_some, hr']
      exact (if_pos hcond).symm
    · simp [Act.step, hr']

theorem references_spared {id : Id t} {cond : Row t → Bool} {missing : ε} {c c' : Conn T}
    (h : Ends p (references t id cond missing) c () c') : Spared (tables []) c c' :=
  h.spared (Prog.All.references trivial)

end Statements

/-! ## Failing runs

An operation is atomic if each of its commits is followed by nothing that can fail, or by nothing
at all.
-/

/-- The program does not commit. -/
abbrev Prog.Uncommitting (m : Prog T ε α) : Prop := m.All (· ≠ .commit)

theorem Act.Within.ne_commit {φ : Change T} {a : Act T} (h : a.Within φ) : a ≠ .commit := by
  rintro rfl
  exact h

theorem Prog.All.uncommitting {m : Prog T ε α} (hm : m.All (Act.Within anything)) :
    m.Uncommitting := hm.mono fun _ => Act.Within.ne_commit

theorem beginTx_uncommitting : (beginTx : Prog T ε Unit).Uncommitting :=
  Prog.All.all_perform (by simp)

/-- A program that does not commit leaves what is committed. -/
theorem Prog.Uncommitting.store {m : Prog T ε α} (hm : m.Uncommitting) (p : Nat) (c : Conn T) :
    (m.run p c).2.server.store = c.server.store := by
  induction m generalizing c with
  | ret a => rfl
  | fail e => rfl
  | act a k ih =>
    cases hm with
    | act ha hk =>
      rw [Prog.run, ih _ (hk _)]
      rcases a.step_server p c with ⟨d, hserver⟩ | ⟨tx, _, hcommit, _⟩
      · rw [hserver]
      · exact absurd hcommit ha

/-- **A failing run has not committed anything.** -/
def Prog.Atomic (m : Prog T ε α) : Prop :=
  ∀ p c e, (m.run p c).1 = .error e → (m.run p c).2.server.store = c.server.store

/-- What comes before the commit may fail. -/
theorem Prog.Atomic.bind {m : Prog T ε α} {f : α → Prog T ε β} (hm : m.Uncommitting)
    (hf : ∀ a, (f a).Atomic) : (m >>= f).Atomic := by
  intro p c e
  have hstore := hm.store p c
  rw [Prog.run_bind]
  cases hrun : m.run p c with
  | mk res c' =>
    rw [hrun] at hstore
    cases res with
    | error e' => exact fun _ => hstore
    | ok a => exact fun h => (hf a p c' e h).trans hstore

theorem commitTx_atomic : (commitTx : Prog T ε Unit).Atomic := by
  intro p c e h
  simp [commitTx, Prog.perform, Prog.run] at h

/-- **A commit followed by nothing but reads**: the run leaves what was committed, whether it fails
before or after. -/
theorem Prog.Atomic.run_bind {m : Prog T ε α} {f : α → Prog T ε β} (hm : m.Atomic)
    (hf : ∀ a, (f a).Uncommitting) (p : Nat) (c : Conn T) :
    ((m >>= f).run p c).2.server.store = c.server.store ∨
      ∃ a c', Ends p m c a c' ∧ ((m >>= f).run p c).2.server.store = c'.server.store := by
  rw [Prog.run_bind]
  cases hrun : m.run p c with
  | mk res c' =>
    cases res with
    | error e =>
      have hsame := hm p c e
      rw [hrun] at hsame
      exact .inl (hsame rfl)
    | ok a => exact .inr ⟨a, c', hrun, (hf a).store p c'⟩

end ReadCommitted
