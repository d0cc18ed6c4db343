import ArcAdmin.ReadCommitted.Footprint

/-!
# Rules for statements under a contract

What the statements of a transaction establish while the other connections keep the contract.

Each rule has the form of the statement: what has to be known before it, what its snapshot then
is, and what is known of each row that it returns. The assertions before and after have to be
stable, since the others may act at any point of the statement; the rules ask for that where the
caller has a choice, and prove it where they have not.

* **`Triple.beginTx`**, **`Triple.commitTx`** — a transaction starts with nothing changed, and may
  commit where the guarantee holds;
* **`Triple.selectForUpdate`** — the rows returned are owned, and are as they were returned;
* **`Triple.insert`**, **`Triple.updateRow`** — what a writing statement leaves behind.
-/

namespace ReadCommitted

open Schema (Id Row Ev serialNo clash Allowed)

variable {T : Type} [Schema T] {ε α : Type}

/-- A list without duplicates that has `a` and nothing else. -/
theorem eq_singleton_of_nodup {l : List α} {a : α} (hnodup : l.Nodup) (hmem : a ∈ l)
    (hall : ∀ b ∈ l, b = a) : l = [a] := by
  have hrep := List.eq_replicate_of_mem hall
  rw [hrep] at hnodup
  have hle : l.length ≤ 1 := List.nodup_replicate.1 hnodup
  have hpos : 0 < l.length := List.length_pos_of_mem hmem
  have hlen : l.length = 1 := by omega
  rw [hrep, hlen]
  rfl

/-- A list without duplicates and with more than one element has one other than `a`. -/
theorem exists_mem_ne_of_nodup {l : List α} (hnodup : l.Nodup) (hlen : 1 < l.length) (a : α) :
    ∃ b ∈ l, b ≠ a := by
  by_contra hall
  push Not at hall
  have hrep := List.eq_replicate_of_mem hall
  rw [hrep] at hnodup
  have hle : l.length ≤ 1 := List.nodup_replicate.1 hnodup
  omega

/-- A snapshot in which `id` alone satisfies the condition selects `id`. -/
theorem Snapshot.matching_eq_singleton {s : Snapshot T} {t : T} {cond : Id t → Row t → Bool}
    {id : Id t} {r : Row t} (hr : s.store.get t id = some r) (hcond : cond id r = true)
    (hone : ∀ i r', s.store.get t i = some r' → cond i r' = true → i = id) :
    s.matching t cond = [id] := by
  have hmem : id ∈ s.matching t cond :=
    List.mem_map.2 ⟨(id, r), List.mem_filter.2 ⟨Store.mem_rows.2 hr, hcond⟩, rfl⟩
  have hall : ∀ i ∈ s.matching t cond, i = id := by
    intro i hi
    obtain ⟨e, he, rfl⟩ := List.mem_map.1 hi
    obtain ⟨hrow, hsat⟩ := List.mem_filter.1 he
    exact hone e.1 e.2 (Store.mem_rows.1 hrow) hsat
  have hnodup : (s.matching t cond).Nodup := by
    have hsub := (List.filter_sublist (l := s.store.rows t)
      (p := fun e => cond e.1 e.2)).map Prod.fst
    exact (Store.rows_keys_nodup _ t).sublist hsub
  exact eq_singleton_of_nodup hnodup hmem hall

/-- A snapshot in which no row satisfies the condition selects nothing. -/
theorem Snapshot.matching_eq_nil {s : Snapshot T} {t : T} {cond : Id t → Row t → Bool}
    (hnone : ∀ i r, s.store.get t i = some r → cond i r = false) : s.matching t cond = [] := by
  unfold Snapshot.matching
  rw [List.map_eq_nil_iff, List.filter_eq_nil_iff]
  intro e he hcond
  rw [hnone e.1 e.2 (Store.mem_rows.1 he)] at hcond
  cases hcond

/-- **`UPDATE` of one row**, alone in a transaction: the row is changed if there is one that satisfies
the condition, and the other tables stay as they are. -/
theorem ends_updateRow {p : Nat} {t : T} {u : Update T t} {id : Id t}
    (hone : ∀ s i r, u.cond s i r = true → i = id) (tx : Tx T) (s : Server T) :
    ∃ rows tx', Ends p (u.exec : Prog T ε _) ⟨some tx, s⟩ rows ⟨some tx', s⟩ ∧
      ((tx'.view s.store).get t id = ((tx.view s.store).get t id).map fun r =>
        if u.cond (⟨some tx, s⟩ : Conn T).snapshot id r then u.set (⟨some tx, s⟩ : Conn T).snapshot r
        else r) ∧
      ∀ other, other ≠ t → tx'.view s.store other = tx.view s.store other := by
  let snap := (⟨some tx, s⟩ : Conn T).snapshot
  have hquery : Ends p (ReadCommitted.query : Prog T ε _) ⟨some tx, s⟩ snap ⟨some tx, s⟩ :=
    ends_query.2 ⟨rfl, rfl⟩
  by_cases hsat : ∃ r, (tx.view s.store).get t id = some r ∧ u.cond snap id r = true
  · obtain ⟨r, hr, hcond⟩ := hsat
    have hmatch : snap.matching t (u.cond snap) = [id] :=
      Snapshot.matching_eq_singleton hr hcond fun i r' _ hi => hone _ i r' hi
    refine ⟨[u.set snap r], tx.write t id .noKeyUpdate (some (u.set snap r)) (u.evs snap r),
      ends_bind.2 ⟨snap, _, hquery, ?_⟩, ?_, fun other hne => ?_⟩
    · unfold Update.execOn
      rw [hmatch]
      refine ends_bind.2 ⟨some (u.set snap r), _, ends_perform.2 ⟨?_, rfl⟩, ?_⟩
      · simp only [Act.step, Conn.view_some, hr, hcond, if_true]
        rfl
      · simp [Act.step, hr, hcond, visit]
    · rw [Tx.view_write, Store.get_set_self, hr, Option.map_some, if_pos hcond]
    · rw [Tx.view_write, Store.set_apply_of_ne _ _ _ hne]
  · have hmatch : snap.matching t (u.cond snap) = [] := by
      refine Snapshot.matching_eq_nil fun i r hr => ?_
      by_contra hcond
      have hcond' : u.cond snap i r = true := by simpa using hcond
      have hi := hone snap i r hcond'
      subst hi
      exact hsat ⟨r, hr, hcond'⟩
    refine ⟨[], tx, ends_bind.2 ⟨snap, _, hquery, ?_⟩, ?_, fun _ _ => rfl⟩
    · unfold Update.execOn
      rw [hmatch]
      exact ends_ret.2 ⟨rfl, rfl⟩
    · cases hr : (tx.view s.store).get t id with
      | none => rfl
      | some r =>
        have hcond : ¬u.cond snap id r = true := fun hc => hsat ⟨r, hr, hc⟩
        rw [Option.map_some, if_neg hcond]

namespace Triple

section Judge

variable {J : Judge T} {p : Nat} {P : Conn T → Prop}

/-- A statement snapshot is what the connection sees at that moment. -/
theorem query {Q : Snapshot T → Conn T → Prop} (hst : J.Stable P) (hst' : ∀ s, J.Stable (Q s))
    (h : ∀ c, J.base c → P c → Q c.snapshot c) :
    Triple J p P (ReadCommitted.query : Prog T ε _) Q :=
  perform (a := .query) (Q := Q) hst hst' fun c hb hc => ⟨by rintro ⟨⟩, h c hb hc⟩

/-- A snapshot on another connection of the pool is what is committed at that moment. -/
theorem poolQuery {Q : Snapshot T → Conn T → Prop} (hst : J.Stable P)
    (hst' : ∀ s, J.Stable (Q s))
    (h : ∀ c, J.base c → P c → Q (⟨none, c.server⟩ : Conn T).snapshot c) :
    Triple J p P (ReadCommitted.poolQuery : Prog T ε _) Q :=
  perform (a := .poolQuery) (Q := Q) hst hst' fun c hb hc => ⟨by rintro ⟨⟩, h c hb hc⟩

/-- **A statement, and what follows it on the same snapshot.** What is known of the statement as it
stands is known where the program goes on to use its snapshot. -/
theorem queryThen {ε α β : Type} {Q : Conn T → Prop} {R : β → Conn T → Prop}
    {m : Snapshot T → Prog T ε α} {f : Snapshot T → Prog T ε β}
    (hm : Triple J p P (ReadCommitted.query >>= m) fun _ => Q)
    (hf : ∀ s, Triple J p Q (f s) R) :
    Triple J p P (ReadCommitted.query >>= fun s => m s >>= fun _ => f s) R := by
  intro c hc
  have hwp : wp J p (.act .query m) (fun _ => Q) c := hm c hc
  show wp J p (.act .query fun s => m s >>= fun _ => f s) R c
  refine wp_act.2 fun d hd hb => ?_
  obtain ⟨hguar, hnext⟩ := wp_act.1 hwp d hd hb
  exact ⟨hguar, wp_bind (wp_mono (fun _ d' hd' => hf _ d' hd') hnext)⟩

/-- **An event of the program's own.** -/
theorem noteEvent {ε : Type} {Q : Unit → Conn T → Prop} {e : Ev T} (hst : J.Stable P)
    (hst' : J.Stable (Q ())) (h : ∀ c, J.base c → P c → Q () (c.noted e)) :
    Triple J p P (ReadCommitted.noteEvent e : Prog T ε Unit) Q := by
  refine perform (a := .note e) (Q := Q) hst (fun _ => hst') fun c hb hc => ⟨by rintro ⟨⟩, ?_⟩
  rw [Act.step_note]
  exact h c hb hc

/-- **`INSERT`**: it fails, or it leaves the new row, whose key is new. -/
theorem insert {t : T} {i : Insert T t} {dup : ε} {Q : Id t → Conn T → Prop} (hst : J.Stable P)
    (hst' : ∀ id, J.Stable (Q id))
    (h : ∀ tx s, J.base ⟨some tx, s⟩ → P ⟨some tx, s⟩ →
      (tx.view s.store).blocks t (i.key s.seq) (i.row s.seq) = false →
      Q (i.key s.seq) ⟨some (tx.write t (i.key s.seq) .update (some (i.row s.seq)) (i.evs s.seq)),
        { s with seq := s.seq + 1 }⟩) :
    Triple J p P (i.exec dup) Q := by
  refine bind (R := fun key c => ∀ id, key = some id → Q id c) ?_ fun key => ?_
  · refine perform hst (fun r => Judge.Stable.forall fun id => ?_) fun c hb hc => ⟨by rintro ⟨⟩, ?_⟩
    · intro d d' hr hd hid
      exact hst' id d d' hr (hd hid)
    · obtain ⟨otx, s⟩ := c
      cases otx with
      | none =>
        intro id hid
        cases hid
      | some tx =>
        by_cases hb' : (tx.view s.store).blocks t (i.key s.seq) (i.row s.seq) = true
        · simp [Act.step, hb']
        · have hq := h tx s hb hc (by simpa using hb')
          intro id hid
          simp only [Act.step, Conn.view_some, hb', if_false, Bool.false_eq_true] at hid ⊢
          cases hid
          exact hq
  · cases key with
    | none => exact fail
    | some id => exact (ret (hst' id) fun _ _ hc => hc).pre fun c hc => hc id rfl

/-- **`UPDATE` of one row** that the statement is bound to find. `σ` is what the statement
snapshot is known to satisfy. -/
theorem updateRow {t : T} {u : Update T t} (id : Id t) {σ : Snapshot T → Prop}
    {Q : List (Row t) → Conn T → Prop} (hst : J.Stable P) (hst' : ∀ rows, J.Stable (Q rows))
    (hone : ∀ s i r, u.cond s i r = true → i = id)
    (hsnap : ∀ c, J.base c → P c → σ c.snapshot)
    (h : ∀ s c, σ s → J.base c → P c → ∃ tx r, c.tx = some tx ∧ c.view.get t id = some r ∧
      u.cond s id r = true ∧
      Q [u.set s r]
        ⟨some (tx.write t id .noKeyUpdate (some (u.set s r)) (u.evs s r)), c.server⟩) :
    Triple J p P (u.exec : Prog T ε _) Q := by
  refine bind (R := fun s c => (σ s ∧ s.matching t (u.cond s) = [id]) ∧ P c)
    (query hst (fun s => (Judge.Stable.const _).and hst) fun c hb hc => ?_) fun s => ?_
  · -- the snapshot selects exactly the row `id`
    have hσ := hsnap c hb hc
    obtain ⟨tx, r, _, hr, hcond, _⟩ := h c.snapshot c hσ hb hc
    exact ⟨⟨hσ, Snapshot.matching_eq_singleton hr hcond fun i r' _ hi => hone _ i r' hi⟩, hc⟩
  · refine assuming fun hs => ?_
    obtain ⟨hσ, hmatch⟩ := hs
    unfold Update.execOn
    rw [hmatch]
    -- the visit of that one row
    refine bind (R := fun b c => Q b.toList c) ?_ fun b => ?_
    · refine perform hst (fun r => hst' _) fun c hb hc => ⟨by rintro ⟨⟩, ?_⟩
      obtain ⟨tx, r, htx, hr, hcond, hq⟩ := h s c hσ hb hc
      obtain ⟨otx, srv⟩ := c
      cases htx
      have hview : (tx.view srv.store).get t id = some r := hr
      simpa [Act.step, hview, hcond] using hq
    · exact ret (hst' _) fun c _ hc => by simpa using hc

/-- A visit returns nothing but what its steps return. -/
theorem visitAll {ι β : Type} {G : β → Prop} {is : List ι} {f : ι → Prog T ε (Option β)}
    (hst : J.Stable P)
    (h : ∀ i ∈ is, Triple J p P (f i) fun o c => (∀ b, o = some b → G b) ∧ P c) :
    Triple J p P (ReadCommitted.visit is f) fun bs c => (∀ b ∈ bs, G b) ∧ P c := by
  induction is with
  | nil => exact ret hst fun c _ hc => ⟨by simp, hc⟩
  | cons i is ih =>
    refine (h i (by simp)).bind fun o => assuming fun ho => ?_
    refine (ih fun j hj => h j (by simp [hj])).bind fun bs => assuming fun hbs => ?_
    refine ret hst fun c _ hc => ⟨fun b hb => ?_, hc⟩
    rcases List.mem_append.1 hb with hb | hb
    · exact ho b (by simpa using hb)
    · exact hbs b hb

/-- **`DELETE`** within `φ`: only keys that the statement selects are deleted. -/
theorem delete {t : T} {d : Delete T t} {φ : Change T} {K : Id t → Prop} (hst : J.Stable P)
    (hP : FrameClosed φ P) (hK : ∀ s id r, d.cond s id r = true → K id)
    (h : ∀ s id, (Act.delete t id (d.seen s id) (d.cond s id) (d.ok s id)).Within φ) :
    Triple J p P (d.exec : Prog T ε _) fun keys c => (∀ id ∈ keys, K id) ∧ P c := by
  have hquery : (ReadCommitted.query : Prog T ε _).All (Act.Within φ) :=
    Prog.All.all_perform (a := .query) trivial
  refine (within hst hP hquery).bind fun s => visitAll hst fun id hid => ?_
  have hsel : K id := by
    obtain ⟨e, he, rfl⟩ := List.mem_map.1 hid
    exact hK s e.1 e.2 (List.mem_filter.1 he).2
  refine (within hst hP (Prog.All.all_perform (h s id))).bind fun gone => ?_
  refine ret hst fun c _ hc => ⟨fun b hb => ?_, hc⟩
  cases gone with
  | false => cases hb
  | true =>
    cases hb
    exact hsel

/-- **`SELECT … FOR UPDATE`**: the rows returned are owned, satisfy the condition, and are as they
were returned. -/
theorem selectForUpdate {t : T} {cond : Snapshot T → Id t → Row t → Bool} {σ : Snapshot T → Prop}
    (hst : J.Stable P)
    (hown : ∀ (id : Id t) (φ : Option (Row t) → Prop), J.Stable fun c => c.Owns ⟨t, id⟩ ∧ φ (c.view.get t id))
    (hsnap : ∀ c, J.base c → P c → σ c.snapshot)
    (hlock : ∀ tx s id m, J.base ⟨some tx, s⟩ → P ⟨some tx, s⟩ →
      P ⟨some (tx.acquire ⟨t, id⟩ m), s⟩) :
    Triple J p P (ReadCommitted.selectForUpdate t cond : Prog T ε _) fun rows c =>
      P c ∧ ∀ e ∈ rows, (∃ s, σ s ∧ cond s e.1 e.2 = true) ∧ c.Owns ⟨t, e.1⟩ ∧
        c.view.get t e.1 = some e.2 := by
  -- what is known of the rows collected so far
  let Held (rows : List (Id t × Row t)) (c : Conn T) : Prop :=
    ∀ e ∈ rows, (∃ s, σ s ∧ cond s e.1 e.2 = true) ∧ c.Owns ⟨t, e.1⟩ ∧ c.view.get t e.1 = some e.2
  have hheld : ∀ rows, J.Stable fun c => P c ∧ Held rows c := by
    intro rows
    refine hst.and (Judge.Stable.forall fun e => ?_)
    intro c c' hr hc he
    exact ⟨(hc he).1, hown e.1 (· = some e.2) c c' hr (hc he).2⟩
  refine bind (query hst (fun s => (Judge.Stable.const (σ s)).and hst)
    fun c hb hc => ⟨hsnap c hb hc, hc⟩) fun s => ?_
  refine assuming fun hσ => ?_
  -- taking a further lock keeps what is known
  have hkeep : ∀ rows tx srv id, Held rows ⟨some tx, srv⟩ →
      Held rows ⟨some (tx.acquire ⟨t, id⟩ .update), srv⟩ := by
    intro rows tx srv id hrows e he
    obtain ⟨hs, ⟨tx₁, htx₁, ho⟩, hget⟩ := hrows e he
    cases htx₁
    exact ⟨hs, ⟨_, rfl, ho.acquire⟩, hget⟩
  have hvisit : ∀ (is : List (Id t)) done, Triple J p (fun c => P c ∧ Held done c)
      (ReadCommitted.visit is fun id => (do
        let row : Option (Row t) ← Prog.perform (.lock t id .update (cond s id))
        return row.map fun r => (id, r) : Prog T ε (Option (Id t × Row t))))
      fun rows c => P c ∧ Held (done ++ rows) c := by
    intro is
    induction is with
    | nil => exact fun done => ret (hheld done) fun c _ hc => by simpa using hc
    | cons id is ih =>
      intro done
      refine bind (R := fun b c => P c ∧ Held (done ++ b.toList) c) ?_ fun b => ?_
      · refine bind (R := fun (row : Option (Row t)) c =>
          P c ∧ Held (done ++ (row.map fun r => (id, r)).toList) c) ?_ fun row =>
            ret (hheld _) fun c _ hc => hc
        refine perform (hheld done) (fun row => hheld _) fun c hb hc => ⟨by rintro ⟨⟩, ?_⟩
        obtain ⟨otx, srv⟩ := c
        cases otx with
        | none => simpa [Act.step] using hc
        | some tx =>
          cases hr : (tx.view srv.store).get t id with
          | none => simpa [Act.step, hr] using hc
          | some r =>
            have hP := hlock tx srv id .update hb hc.1
            have hold := hkeep done tx srv id hc.2
            by_cases hcond : cond s id r = true
            · simp only [Act.step, Conn.view_some, hr, hcond]
              refine ⟨hP, fun e he => ?_⟩
              rcases List.mem_append.1 he with he | he
              · exact hold e he
              · have hee : e = (id, r) := by simpa using he
                subst hee
                refine ⟨⟨s, hσ, hcond⟩, ⟨_, rfl, .update, rfl, List.mem_cons_self⟩, ?_⟩
                simpa using hr
            · simp only [Act.step, Conn.view_some, hr, hcond]
              exact ⟨hP, by simpa using hold⟩
      · refine (ih (done ++ b.toList)).bind fun rows => ?_
        rw [List.append_assoc]
        exact ret (hheld _) fun c _ hc => hc
  refine (hvisit _ []).pre fun c hc => ⟨hc, fun e he => by cases he⟩

/-- **`SELECT … FOR UPDATE` of one row** that the statement is bound to find. -/
theorem selectRowForUpdate {t : T} {cond : Snapshot T → Id t → Row t → Bool} (id : Id t)
    {σ : Snapshot T → Prop} {Q : List (Id t × Row t) → Conn T → Prop} (hst : J.Stable P)
    (hst' : ∀ rows, J.Stable (Q rows)) (hsnap : ∀ c, J.base c → P c → σ c.snapshot)
    (h : ∀ s c, σ s → J.base c → P c → ∃ tx r, c.tx = some tx ∧ c.view.get t id = some r ∧
      cond s id r = true ∧ (∀ i r', c.view.get t i = some r' → cond s i r' = true → i = id) ∧
      Q [(id, r)] ⟨some (tx.acquire ⟨t, id⟩ .update), c.server⟩) :
    Triple J p P (ReadCommitted.selectForUpdate t cond : Prog T ε _) Q := by
  refine bind (R := fun s c => (σ s ∧ s.matching t (cond s) = [id]) ∧ P c)
    (query hst (fun s => (Judge.Stable.const _).and hst) fun c hb hc => ?_) fun s => ?_
  · have hσ := hsnap c hb hc
    obtain ⟨tx, r, _, hr, hcond, hone, _⟩ := h c.snapshot c hσ hb hc
    exact ⟨⟨hσ, Snapshot.matching_eq_singleton hr hcond hone⟩, hc⟩
  · refine assuming fun hs => ?_
    obtain ⟨hσ, hmatch⟩ := hs
    rw [hmatch]
    refine bind (R := fun b c => Q b.toList c) ?_ fun b => ?_
    · refine bind (R := fun (row : Option (Row t)) c => Q (row.map fun r => (id, r)).toList c) ?_
        fun row => ret (hst' _) fun c _ hc => hc
      refine perform hst (fun row => hst' _) fun c hb hc => ⟨by rintro ⟨⟩, ?_⟩
      obtain ⟨tx, r, htx, hr, hcond, _, hq⟩ := h s c hσ hb hc
      obtain ⟨otx, srv⟩ := c
      cases htx
      have hview : (tx.view srv.store).get t id = some r := hr
      simpa [Act.step, hview, hcond] using hq
    · exact ret (hst' _) fun c _ hc => by simpa using hc

/-- **`BEGIN`**: the transaction sees what is committed. -/
theorem beginTx (hJ : J.Private) :
    Triple J p (fun _ => True) (ReadCommitted.beginTx : Prog T ε Unit) fun _ => Conn.Begun :=
  perform (a := .begin) (Q := fun _ => Conn.Begun) (fun _ _ _ _ => trivial)
    (fun _ => hJ.stable fun otx => ∃ start, otx = some ⟨start, [], [], []⟩)
    fun c _ _ => ⟨by rintro ⟨⟩, ⟨_, rfl⟩⟩

/-- **`COMMIT`**: what the others rely on must hold. -/
theorem commitTx (hJ : J.Private) (hst : J.Stable P) (h : ∀ c, J.base c → P c → J.guar c) :
    Triple J p P (ReadCommitted.commitTx : Prog T ε Unit) fun _ c => c.tx = none := by
  refine perform (a := .commit) (Q := fun _ c => c.tx = none) hst
    (fun _ => hJ.stable fun otx => otx = none) fun c hb hc => ⟨fun _ => h c hb hc, ?_⟩
  obtain ⟨otx, s⟩ := c
  cases otx <;> rfl

/-- `ROLLBACK`. -/
theorem rollbackTx (hJ : J.Private) (hst : J.Stable P) :
    Triple J p P (ReadCommitted.rollbackTx : Prog T ε Unit) fun _ c => c.tx = none :=
  perform (a := .rollback) (Q := fun _ c => c.tx = none) hst
    (fun _ => hJ.stable fun otx => otx = none) fun c _ _ => ⟨by rintro ⟨⟩, rfl⟩

end Judge

end Triple

end ReadCommitted
