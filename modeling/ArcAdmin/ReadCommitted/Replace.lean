import ArcAdmin.ReadCommitted.Rules

/-!
# Replacing a set of rows

A transaction that replaces a set of rows deletes the old ones and inserts the new ones. The
`DELETE` does not visit rows that were committed after its snapshot, so what is left in the end is
known only of the rows that the transaction has locked.

* **`Act.Outside`** — an act that neither changes nor locks a row of a table (`Triple.outside`);
* **`Conn.Owned`** — what is known of the rows that a connection has locked;
* **`Triple.clear`**, **`Triple.change`** — what a `DELETE` and an `UPDATE` make of it;
* **`Conn.Replaced`** — of what the connection has locked of a set, what was wanted is left;
* **`Triple.replace`** — so it is after a `DELETE` of the set and the `INSERT`s of the new rows.
-/

namespace ReadCommitted

open Schema (Id Row Ev serialNo clash Allowed)

variable {T : Type} [Schema T] {ε α : Type}

/-! ## Acts on other tables

The acts of a program that have nothing to do with a table, and the proof that what is known of
its rows and locks survives them.
-/

/-- The act neither starts nor ends a transaction, and visits no row of table `t`. -/
def Act.Outside (t : T) : Act T → Prop
  | .begin | .commit | .rollback => False
  | .lock u .. | .update u .. | .delete u .. | .insert u .. | .upsert u .. => u ≠ t
  | .query | .poolQuery | .clock | .fresh | .note _ => True

/-- Such an act leaves an event of its own, or works on other tables. -/
theorem Act.Outside.cases {t : T} {a : Act T} (h : a.Outside t) :
    (∃ e, a = .note e) ∨ a.Within (besides t) := by
  cases a with
  | begin | commit | rollback => cases h
  | note e => exact .inl ⟨e, rfl⟩
  | query | poolQuery | clock | fresh | lock => exact .inr trivial
  | update => exact .inr fun _ _ => h
  | delete => exact .inr fun _ _ => h
  | insert => exact .inr fun _ => h
  | upsert => exact .inr ⟨h, fun _ _ _ => h⟩

theorem Act.Outside.ne_commit {t : T} {a : Act T} (h : a.Outside t) : a ≠ .commit := by
  rintro rfl
  cases h

/-- It waits for no row of the table. -/
theorem Act.Outside.wants {t : T} {a : Act T} (h : a.Outside t) {c : Conn T}
    {l : Key T × LockMode} (hl : a.wants c = some l) : l.1.1 ≠ t := by
  cases a with
  | begin | commit | rollback => cases h
  | query | poolQuery | clock | fresh | note => cases hl
  | lock | update | insert | upsert =>
    cases hl
    exact h
  | delete u id seen recheck ok =>
    obtain ⟨r, _, hr⟩ := Option.map_eq_some_iff.1 hl
    rw [← hr]
    exact h

/-- **Nothing has happened to a table**: its rows look the same, and no other rows are locked. -/
structure SameTable (t : T) (c c' : Conn T) : Prop where
  store : c'.server.store = c.server.store
  view : ∀ id, c'.view.get t id = c.view.get t id
  owns : ∀ id, c'.Owns ⟨t, id⟩ ↔ c.Owns ⟨t, id⟩

/-- Nothing happens to any table where an event is noted. -/
theorem SameTable.noted (t : T) (c : Conn T) (e : Ev T) : SameTable t c (c.noted e) where
  store := rfl
  view _ := by rw [Conn.view_noted]
  owns _ := Conn.owns_noted

theorem Act.Outside.sameTable {t : T} {a : Act T} (h : a.Outside t) (p : Nat) (c : Conn T) :
    SameTable t c (a.step p c).2 := by
  rcases h.cases with ⟨e, rfl⟩ | hwithin
  · rw [Act.step_note]
    exact .noted t c e
  have hframed := hwithin.framed p c
  refine ⟨hframed.store, hframed.view_get fun _ _ _ _ hne => hne rfl, fun id => ⟨?_, hframed.owns⟩⟩
  rintro ⟨tx', htx', m, hm, hmem⟩
  rcases a.step_locks p c htx' hmem with ⟨tx, htx, hold⟩ | hwants
  · exact ⟨tx, htx, m, hm, hold⟩
  · exact absurd rfl (h.wants hwants)

/-- **Programs outside a table** keep what is known of its rows and locks. -/
theorem Triple.outside {J : Judge T} {p : Nat} {t : T} {P : Conn T → Prop} {m : Prog T ε α}
    (hst : J.Stable P) (hP : ∀ c c', SameTable t c c' → P c → P c') (hm : m.All (Act.Outside t)) :
    Triple J p P m fun _ => P :=
  Triple.of_all hst (fun _ ha c _ hc =>
    ⟨fun h => absurd h ha.ne_commit, hP c _ (ha.sameTable p c) hc⟩) hm

/-! ## The rows that a connection has locked

Nothing is known of rows that are not locked: they may change at any time. So the assertions are
about the locked ones, each of which is as the transaction has left it.
-/

/-- A row that is not locked is seen as it is committed. -/
theorem Conn.view_get_of_not_owns {c : Conn T} (hwf : c.Wf) {t : T} {id : Id t}
    (hno : ¬c.Owns ⟨t, id⟩) : c.view.get t id = c.server.store.get t id := by
  obtain ⟨otx, s⟩ := c
  cases otx with
  | none => rfl
  | some tx => exact (hwf.2 tx rfl).view_get s.store fun ho => hno ⟨tx, rfl, ho⟩

/-- `W` holds of every row of table `t` that the connection has locked. -/
def Conn.Owned (c : Conn T) (t : T) (W : Id t → Option (Row t) → Prop) : Prop :=
  ∀ id, c.Owns ⟨t, id⟩ → W id (c.view.get t id)

namespace Conn.Owned

variable {t : T} {W W' : Id t → Option (Row t) → Prop} {c c' : Conn T}

theorem sameTable (hs : SameTable t c c') (h : c.Owned t W) : c'.Owned t W := by
  intro id ho
  rw [hs.view id]
  exact h id ((hs.owns id).1 ho)

/-- A new transaction has locked nothing. -/
theorem of_begun (h : c.Begun) : c.Owned t W := by
  intro id ho
  obtain ⟨otx, s⟩ := c
  obtain ⟨start, hstart⟩ := h
  cases hstart
  obtain ⟨tx, htx, m, _, hmem⟩ := ho
  cases htx
  cases hmem

/-- A transaction that has written one row owns that one besides. -/
theorem write {tx : Tx T} {s : Server T} {id : Id t} {m : LockMode} {v : Option (Row t)}
    {evs : List (Ev T)} {d : Nat} (h : (⟨some tx, s⟩ : Conn T).Owned t W)
    (hW : ∀ i, i ≠ id → ∀ v, W i v → W' i v) (hv : W' id v) :
    (⟨some (tx.write t id m v evs), { s with seq := s.seq + d }⟩ : Conn T).Owned t W' := by
  intro i ho
  rw [Conn.view_some, Tx.view_write, Store.get_set]
  by_cases hi : i = id
  · subst hi
    rw [if_pos rfl]
    exact hv
  · rw [if_neg hi]
    refine hW i hi _ (h i ?_)
    obtain ⟨tx', htx', m', hm', hmem⟩ := ho
    cases htx'
    rcases List.mem_cons.1 hmem with heq | hold
    · cases heq
      exact absurd rfl hi
    · exact ⟨tx, rfl, m', hm', hold⟩

/-- A transaction that has locked one row more owns that one besides. -/
theorem acquire {tx : Tx T} {s : Server T} {id : Id t} {m : LockMode}
    (h : (⟨some tx, s⟩ : Conn T).Owned t W) (hW : ∀ i, i ≠ id → ∀ v, W i v → W' i v)
    (hid : W' id ((tx.view s.store).get t id)) :
    (⟨some (tx.acquire ⟨t, id⟩ m), s⟩ : Conn T).Owned t W' := by
  intro i ho
  by_cases hi : i = id
  · subst hi
    exact hid
  · refine hW i hi _ (h i ?_)
    obtain ⟨tx', htx', m', hm', hmem⟩ := ho
    cases htx'
    rcases List.mem_cons.1 hmem with heq | hold
    · cases heq
      exact absurd rfl hi
    · exact ⟨tx, rfl, m', hm', hold⟩

end Conn.Owned

section Contract

variable {K : Contract T} {p : Nat} {t : T} {W : Id t → Option (Row t) → Prop}

/-- **What is known of locked rows is stable.** -/
theorem Contract.stable_ownedRows (hK : K.WellFormed) :
    (K.judge p).Stable fun c => c.Owned t W := by
  intro c c' hr h id ho
  have hown : c.Owns ⟨t, id⟩ := by
    obtain ⟨tx, htx, hmem⟩ := ho
    exact ⟨tx, by rw [← private_judge c c' hr]; exact htx, hmem⟩
  rw [(hr.2.2.2.2.get_of_owns hK.commits hown).2]
  exact h id hown

/-- **`DELETE`**: no locked row satisfies its condition any more. -/
theorem Triple.clear (hK : K.WellFormed) {d : Delete T t} (part : Id t → Row t → Bool)
    (hcond : ∀ s, d.cond s = part)
    (hseen : ∀ s id r, s.store.get t id = some r → d.seen s id r = true)
    {W' : Id t → Option (Row t) → Prop}
    (hold : ∀ id v, W id v → (∀ r, v = some r → part id r = false) → W' id v)
    (hnew : ∀ id r v, part id r = true → (∀ r', v = some r' → part id r' = false) → W' id v) :
    Triple (K.judge p) p (fun c => c.Owned t W) (d.exec : Prog T ε _) fun _ c => c.Owned t W' := by
  -- a locked row that satisfies the condition has been selected, and is still to be visited
  let I (s : Snapshot T) (done : List (Id t)) (c : Conn T) : Prop :=
    c.Owned t fun id v => ((∀ r, v = some r → part id r = false) → W' id v) ∧
      ∀ r, v = some r → part id r = true → id ∉ done ∧ s.store.get t id = some r
  have hst : ∀ s done, (K.judge p).Stable (I s done) := fun _ _ => Contract.stable_ownedRows hK
  have hquery : Triple (K.judge p) p (fun c => c.Owned t W) (ReadCommitted.query : Prog T ε _)
      fun s => I s [] := by
    refine Triple.query (Contract.stable_ownedRows hK) (fun s => hst s []) fun c _ hc id ho => ?_
    exact ⟨hold id _ (hc id ho), fun r hr _ => ⟨by simp, hr⟩⟩
  refine hquery.bind fun s => ?_
  refine (Triple.visit (I := I s) (hst s) (fun done id hid => ?_) []).post fun _ c hc => ?_
  · have hsel : ∃ r, part id r = true := by
      obtain ⟨e, he, rfl⟩ := List.mem_map.1 hid
      refine ⟨e.2, ?_⟩
      rw [← hcond s]
      exact (List.mem_filter.1 he).2
    obtain ⟨r₀, hr₀⟩ := hsel
    refine Triple.bind (R := fun _ => I s (done ++ [id])) ?_ fun _ =>
      Triple.ret (hst s _) fun _ _ hc => hc
    refine Triple.perform (hst s done) (fun _ => hst s _) fun c _ hc => ⟨by rintro ⟨⟩, ?_⟩
    obtain ⟨otx, srv⟩ := c
    cases otx with
    | none =>
      intro i ho
      obtain ⟨tx, htx, _⟩ := ho
      cases htx
    | some tx =>
      have hother : ∀ i, i ≠ id → ∀ v, (((∀ r, v = some r → part i r = false) → W' i v) ∧
          ∀ r, v = some r → part i r = true → i ∉ done ∧ s.store.get t i = some r) →
          (((∀ r, v = some r → part i r = false) → W' i v) ∧
            ∀ r, v = some r → part i r = true → i ∉ done ++ [id] ∧
              s.store.get t i = some r) := by
        intro i hi v hv
        refine ⟨hv.1, fun r hr hpart => ?_⟩
        obtain ⟨hdone, hmem⟩ := hv.2 r hr hpart
        exact ⟨by simp [hdone, hi], hmem⟩
      cases hsel : ((tx.view srv.store).get t id).filter (d.seen s id) with
      | none =>
        -- the selected row has been deleted in the meantime, and nothing is done
        simp only [Act.step, Conn.view_some, hsel]
        intro i ho
        by_cases hi : i = id
        · subst hi
          refine ⟨(hc i ho).1, fun r hr hpart => ?_⟩
          have hview : (tx.view srv.store).get t i = some r := hr
          have hs : d.seen s i r = true := hseen s i r ((hc i ho).2 r hr hpart).2
          rw [hview, Option.filter_some, if_pos hs] at hsel
          cases hsel
        · exact hother i hi _ (hc i ho)
      | some r =>
        have hr : (tx.view srv.store).get t id = some r := (Option.filter_eq_some_iff.1 hsel).1
        by_cases hpart : part id r = true
        · have hc' : d.cond s id r = true := by rw [hcond]; exact hpart
          simp only [Act.step, Conn.view_some, hsel, hc', if_true]
          exact Conn.Owned.write (d := 0) hc hother ⟨hnew id r₀ none hr₀, fun r h => by cases h⟩
        · have hc' : d.cond s id r = false := by rw [hcond]; simpa using hpart
          simp only [Act.step, Conn.view_some, hsel, hc', if_false, Bool.false_eq_true]
          refine Conn.Owned.acquire hc hother ?_
          rw [hr]
          refine ⟨hnew id r₀ (some r) hr₀, fun r' h hp => ?_⟩
          cases h
          exact absurd hp hpart
  · intro id ho
    have hid := hc id ho
    refine hid.1 fun r hr => ?_
    by_contra hpart
    have hpart' : part id r = true := by simpa using hpart
    obtain ⟨hdone, hmem⟩ := hid.2 r hr hpart'
    have hsel : id ∈ s.matching t (d.cond s) := by
      refine List.mem_map.2 ⟨(id, r), List.mem_filter.2 ⟨Store.mem_rows.2 hmem, ?_⟩, rfl⟩
      rw [hcond]
      exact hpart'
    exact absurd hsel (by simpa using hdone)

/-- **`UPDATE`**: what is known of every locked row is known of those that it visits, be it that they
are changed (`hset`) or that they are passed over (`hskip`). -/
theorem Triple.change (hK : K.WellFormed) {u : Update T t} {s : Snapshot T}
    (hset : ∀ id r, u.cond s id r = true → W id (some (u.set s r)))
    (hskip : ∀ id r, u.cond s id r = false → W id (some r)) :
    Triple (K.judge p) p (fun c => c.Owned t W) (u.execOn s : Prog T ε _)
      fun _ c => c.Owned t W := by
  have hst : (K.judge p).Stable fun c => c.Owned t W := Contract.stable_ownedRows hK
  refine Triple.visit (I := fun _ c => c.Owned t W) (fun _ => hst) (fun done id _ => ?_) []
  refine Triple.perform hst (fun _ => hst) fun c _ hc => ⟨by rintro ⟨⟩, ?_⟩
  obtain ⟨otx, srv⟩ := c
  cases otx with
  | none => exact hc
  | some tx =>
    cases hr : (tx.view srv.store).get t id with
    | none =>
      simp only [Act.step, Conn.view_some, hr]
      exact hc
    | some r =>
      by_cases hcond : u.cond s id r = true
      · simp only [Act.step, Conn.view_some, hr, hcond, if_true]
        exact Conn.Owned.write (d := 0) hc (fun _ _ _ hv => hv) (hset id r hcond)
      · have hcond' : u.cond s id r = false := by simpa using hcond
        simp only [Act.step, Conn.view_some, hr, hcond', if_false, Bool.false_eq_true]
        refine Conn.Owned.acquire hc (fun _ _ _ hv => hv) ?_
        rw [hr]
        exact hskip id r hcond'

end Contract

/-! ## A set that is being replaced

The locked rows of the set, from the `DELETE` of the old ones to the last `INSERT`.
-/

/-- **The rows `mine` are being replaced** by the rows `want`: of what the connection has locked in
the table, only rows `want` are left, and the rows `done` are among them. -/
structure Conn.Replacing (c : Conn T) (t : T) (mine want done : Id t → Prop) : Prop where
  owned : c.Owned t fun id v => mine id ∧ (v.isSome → want id)
  held : ∀ id, done id → c.Owns ⟨t, id⟩ ∧ (c.view.get t id).isSome

/-- The rows `mine` have been replaced by those among them that are wanted. -/
def Conn.Replaced (c : Conn T) (t : T) (mine want : Id t → Prop) : Prop :=
  c.Replacing t mine want fun id => mine id ∧ want id

namespace Conn.Replacing

variable {t : T} {mine want done done' : Id t → Prop} {c c' : Conn T}

theorem of_begun (h : c.Begun) (hdone : ∀ id, ¬done id) : c.Replacing t mine want done :=
  ⟨Conn.Owned.of_begun h, fun id hid => absurd hid (hdone id)⟩

theorem mono (h : c.Replacing t mine want done) (hdone : ∀ id, done' id → done id) :
    c.Replacing t mine want done' :=
  ⟨h.owned, fun id hid => h.held id (hdone id hid)⟩

theorem sameTable (hs : SameTable t c c') (h : c.Replacing t mine want done) :
    c'.Replacing t mine want done := by
  refine ⟨h.owned.sameTable hs, fun id hid => ?_⟩
  rw [hs.owns id, hs.view id]
  exact h.held id hid

end Conn.Replacing

section Contract

variable {K : Contract T} {p : Nat} {t : T} {mine want done : Id t → Prop}

theorem Contract.stable_replacing (hK : K.WellFormed) :
    (K.judge p).Stable fun c => c.Replacing t mine want done := by
  intro c c' hr h
  refine ⟨Contract.stable_ownedRows hK c c' hr h.owned, fun id hid => ?_⟩
  exact Contract.stable_owned hK (fun v => v.isSome) c c' hr (h.held id hid)

/-- **`DELETE`** of rows that are to be replaced. -/
theorem Triple.clearReplacing (hK : K.WellFormed) {d : Delete T t} {part : Id t → Bool}
    (hcond : ∀ s id r, d.cond s id r = part id)
    (hseen : ∀ s id r, s.store.get t id = some r → d.seen s id r = true)
    (hmine : ∀ id, part id = true → mine id) :
    Triple (K.judge p) p (fun c => c.Replacing t mine want done) (d.exec : Prog T ε _)
      fun _ c => c.Replacing t mine want fun id => done id ∧ part id = false := by
  have howned : Triple (K.judge p) p (fun c => c.Owned t fun id v => mine id ∧ (v.isSome → want id))
      (d.exec : Prog T ε _) fun _ c => c.Owned t fun id v => mine id ∧ (v.isSome → want id) := by
    refine Triple.clear hK (fun id _ => part id) (fun s => by funext id r; exact hcond s id r) hseen
      (fun id v h _ => h) fun id r v hpart hgone => ⟨hmine id hpart, fun hv => ?_⟩
    obtain ⟨r', hr'⟩ := Option.isSome_iff_exists.1 hv
    have hfalse : part id = false := hgone r' hr'
    rw [hpart] at hfalse
    cases hfalse
  -- the other rows are not visited
  let φ : Change T := fun u id _ _ _ => ∀ h : u = t, part (h ▸ id) = true
  have hheld : Triple (K.judge p) p
      (fun c => ∀ id, done id ∧ part id = false → c.Owns ⟨t, id⟩ ∧ (c.view.get t id).isSome)
      (d.exec : Prog T ε _) fun _ c => ∀ id, done id ∧ part id = false →
        c.Owns ⟨t, id⟩ ∧ (c.view.get t id).isSome := by
    refine Triple.within (φ := φ) ?_ ?_ ?_
    · exact fun c c' hr h id hid => Contract.stable_owned hK (fun v => v.isSome) c c' hr (h id hid)
    · intro c c' hf h id hid
      refine ⟨hf.owns (h id hid).1, ?_⟩
      rcases hf.row t id with hsame | ⟨evs, hchange, _⟩
      · rw [hsame]
        exact (h id hid).2
      · have hpart : part id = true := hchange rfl
        rw [hid.2] at hpart
        cases hpart
    · refine Prog.All.delete (fun s id r hr h => ?_) trivial
      rw [hcond] at hr
      exact hr
  refine (howned.and hheld).conseq (fun c hc => ⟨hc.owned, fun id hid => hc.held id hid.1⟩) ?_
  exact fun _ c hc => ⟨hc.1, hc.2⟩

/-- **`INSERT`** of a row that is wanted. -/
theorem Triple.addReplacing (hK : K.WellFormed) {i : Insert T t} {dup : ε} {k : Id t}
    (hkey : ∀ n, i.key n = k) (hmine : mine k) (hwant : want k) :
    Triple (K.judge p) p (fun c => c.Replacing t mine want done) (i.exec dup)
      fun _ c => c.Replacing t mine want fun id => done id ∨ id = k := by
  refine Triple.insert (Contract.stable_replacing hK) (fun _ => Contract.stable_replacing hK) ?_
  intro tx s _ hc _
  rw [hkey]
  refine ⟨Conn.Owned.write hc.owned (fun _ _ _ h => h) ⟨hmine, fun _ => hwant⟩, fun id hid => ?_⟩
  rw [Conn.view_some, Tx.view_write, Store.get_set]
  by_cases hk : id = k
  · subst hk
    exact ⟨⟨_, rfl, tx.owns_write t id _ _ rfl⟩, by simp⟩
  · rw [if_neg hk]
    obtain ⟨⟨tx', htx', ho⟩, hsome⟩ := hc.held id (hid.resolve_right hk)
    cases htx'
    exact ⟨⟨_, rfl, ho.write⟩, hsome⟩

/-- **A `DELETE` and a loop of `INSERT`s.** The rows that the `DELETE` asks for have been replaced
by those under the given keys.  The loop may use the snapshot of the `DELETE`. -/
theorem Triple.replace {κ : Type} (hK : K.WellFormed) {d : Delete T t} (part : Id t → Bool)
    (hcond : ∀ s id r, d.cond s id r = part id)
    (hseen : ∀ s id r, s.store.get t id = some r → d.seen s id r = true)
    (hmine : ∀ id, part id = true → mine id)
    {ks : List κ} (key : κ → Id t) {f : κ → Prog T ε Unit} {g : Snapshot T → α}
    (hadd : ∀ k ∈ ks, ∀ done : Id t → Prop, Triple (K.judge p) p
      (fun c => c.Replacing t mine want done) (f k)
      fun _ c => c.Replacing t mine want fun id => done id ∨ id = key k) :
    Triple (K.judge p) p (fun c => c.Replacing t mine want done)
      (ReadCommitted.query >>= fun s => d.execOn s >>= fun _ => Prog.forEach ks f >>= fun _ =>
        (.ret (g s) : Prog T ε α)) fun _ c => c.Replacing t mine want fun id =>
        (done id ∧ part id = false) ∨ ∃ k ∈ ks, id = key k := by
  let I (ins : List κ) (c : Conn T) : Prop := c.Replacing t mine want fun id =>
    (done id ∧ part id = false) ∨ ∃ k ∈ ins, id = key k
  have hstart : Triple (K.judge p) p (fun c => c.Replacing t mine want done) (d.exec : Prog T ε _)
      fun _ => I [] := by
    refine (Triple.clearReplacing hK hcond hseen hmine).post fun _ c hc => hc.mono fun id hid => ?_
    rcases hid with hkept | ⟨k, hk, _⟩
    · exact hkept
    · cases hk
  refine Triple.queryThen hstart fun s => Triple.bind (R := fun _ => I ks) ?_ fun _ =>
    Triple.ret (Contract.stable_replacing hK) fun _ _ hc => hc
  refine Triple.forEachDone (I := I) (fun _ => Contract.stable_replacing hK) (fun ins k hk => ?_) []
  refine (hadd k hk _).post fun _ c hc => hc.mono fun id hid => ?_
  rcases hid with hkept | ⟨k', hk', hid⟩
  · exact .inl (.inl hkept)
  · rcases List.mem_append.1 hk' with hin | hlast
    · exact .inl (.inr ⟨k', hin, hid⟩)
    · have heq : k' = k := List.mem_singleton.1 hlast
      subst heq
      exact .inr hid

end Contract

end ReadCommitted
