import ArcAdmin.ReadCommitted.Rules

/-!
# Laws of rows that rest on locks

A `RowLaw` follows from the row protocol alone. Here the relation between a row and its history may
rest on what a program knows when it writes: a row that it has locked is as it was when it was read.
So the relation is a part of a contract: every connection sees rows that obey it, and commits no
others. The second half is about what one program has committed so far.

* **`Conn.Obeys.interferes`** — the rows that a connection sees obey the law, if the committed ones
  do;
* **`Made.obeys`**, **`Conn.Obeys.write`** — what programs have to show;
* **`Logged`**, **`Triple.commitLogged`** — a journal entry of this program is there for good.
-/

namespace ReadCommitted

open Schema (Id Row Ev serialNo clash Allowed)

variable {T : Type} [Schema T] {ε α : Type} {t : T} {L : Id t → Option (Row t) → List (Ev T) → Prop}

/-! ## The history of an owned row

The history of a row is what the journal and the open transaction have told of it. While a
transaction has the lock of a writer, nobody else can add to it.
-/

/-- A row that is not owned has the history that is committed. -/
theorem Conn.Wf.history_of_not_owns {c : Conn T} (hwf : c.Wf) {k : Key T} (hno : ¬c.Owns k) :
    c.history k = ReadCommitted.history c.server.log k := by
  obtain ⟨otx, s⟩ := c
  cases otx with
  | none => exact Conn.history_none s k
  | some tx =>
    have hnoted : ReadCommitted.noted tx.notes k = [] :=
      (hwf.2 tx rfl).noted_eq_nil fun hown => hno ⟨tx, rfl, hown⟩
    rw [Conn.history_some, hnoted, List.append_nil]

/-- **A commit of another transaction adds nothing to the history of an owned row.** -/
theorem Interferes.history_of_owns {I : Nat → Conn T → Prop} {cond : Nat → Conn T → Prop} {p : Nat}
    {c c' : Conn T} (hI : ∀ q c, I q c → c.Wf) (hi : Interferes I cond p c c') {k : Key T}
    (ho : c.Owns k) : c'.history k = c.history k := by
  obtain ⟨otx, s⟩ := c
  obtain ⟨tx₀, htx₀, hown⟩ := ho
  cases htx₀
  cases hi with
  | tick d => rfl
  | draw d => rfl
  | commit q tx hq hcompat hIq hcond =>
    have hno : ¬tx.Owns k := (hcompat tx₀ rfl).not_owns hown
    have hnoted : noted tx.notes k = [] := ((hI q _ hIq).2 tx rfl).noted_eq_nil hno
    rw [Conn.history_some, Conn.history_some, history_commit, hnoted, List.append_nil]

/-! ## What connections see obeys the law

The law relates a row with its history. A connection sees either what is committed, of which the
law holds by the contract, or what it has written itself.
-/

/-- **Interference keeps the law**, if the committed rows obey it before and after. -/
theorem Conn.Obeys.interferes {I : Nat → Conn T → Prop} {cond : Nat → Conn T → Prop} {p : Nat}
    {c c' : Conn T} (hwf' : c'.Wf) (hI : ∀ q c, I q c → c.Wf)
    (hi : Interferes I cond p c c') (hserver : (⟨none, c'.server⟩ : Conn T).Obeys t L)
    (h : c.Obeys t L) : c'.Obeys t L := by
  intro id
  by_cases ho : c.Owns ⟨t, id⟩
  · rw [(hi.get_of_owns hI ho).2, hi.history_of_owns hI ho]
    exact h id
  · -- another row: the connection sees it as committed
    have hno : ¬c'.Owns ⟨t, id⟩ := by
      rintro ⟨tx, htx, hown⟩
      rw [hi.tx_eq] at htx
      exact ho ⟨tx, htx, hown⟩
    have hcommitted := hserver id
    rw [Conn.history_none] at hcommitted
    have hview : c'.view.get t id = c'.server.store.get t id := by
      obtain ⟨otx, s⟩ := c'
      cases otx with
      | none => rfl
      | some tx => exact (hwf'.2 tx rfl).view_get s.store fun hown => hno ⟨tx, rfl, hown⟩
    rw [hview, hwf'.history_of_not_owns hno]
    exact hcommitted

/-- A connection that has done nothing yet sees what is committed. -/
theorem Conn.Clean.obeys {c : Conn T} (h : c.Clean)
    (hserver : (⟨none, c.server⟩ : Conn T).Obeys t L) : c.Obeys t L := by
  intro id
  have hhistory : c.history ⟨t, id⟩ = (⟨none, c.server⟩ : Conn T).history ⟨t, id⟩ := by
    rw [Conn.history, h.notes, noted_nil, List.append_nil, Conn.history_none]
  rw [h.view_eq, hhistory]
  exact hserver id

/-- **What a transaction saw is what it commits.** -/
theorem Conn.Obeys.commit {tx : Tx T} {s : Server T} (h : (⟨some tx, s⟩ : Conn T).Obeys t L)
    (p : Nat) : (⟨none, s.commit p tx⟩ : Conn T).Obeys t L := by
  intro id
  have hseen := h id
  rw [Conn.history_some] at hseen
  rw [Conn.history_none, history_commit]
  exact hseen

/-- An event of its own is about no row. -/
theorem Conn.Obeys.noted {c : Conn T} (h : c.Obeys t L) (e : Ev T) : (c.noted e).Obeys t L := by
  intro id
  have hhistory : (c.noted e).history ⟨t, id⟩ = c.history ⟨t, id⟩ := by
    obtain ⟨otx, s⟩ := c
    cases otx with
    | none => rfl
    | some tx => simp [Conn.noted, Conn.history_some, ReadCommitted.noted]
  rw [Conn.view_noted, hhistory]
  exact h id

/-- Taking a lock changes nothing. -/
theorem Conn.Obeys.acquire {tx : Tx T} {s : Server T} (h : (⟨some tx, s⟩ : Conn T).Obeys t L)
    (k : Key T) (m : LockMode) : (⟨some (tx.acquire k m), s⟩ : Conn T).Obeys t L := h

/-- **A change of one row keeps the law** if the new row obeys it with the new events. -/
theorem Conn.Obeys.write {tx : Tx T} {s : Server T} (h : (⟨some tx, s⟩ : Conn T).Obeys t L)
    {id : Id t} {m : LockMode} {v : Option (Row t)} {evs : List (Ev T)} {d : Nat}
    (hnew : L id v ((⟨some tx, s⟩ : Conn T).history ⟨t, id⟩ ++ evs)) :
    (⟨some (tx.write t id m v evs), { s with seq := s.seq + d }⟩ : Conn T).Obeys t L := by
  intro id'
  by_cases hk : id' = id
  · subst hk
    have hhistory : (⟨some (tx.write t id' m v evs), { s with seq := s.seq + d }⟩ : Conn T).history
        ⟨t, id'⟩ = (⟨some tx, s⟩ : Conn T).history ⟨t, id'⟩ ++ evs := by
      rw [Conn.history_some, Conn.history_some, Tx.notes_write, noted_append, noted_write_self,
        List.append_assoc]
    rw [hhistory, Conn.view_some, Tx.view_write, Store.get_set_self]
    exact hnew
  · have hkey : (⟨t, id'⟩ : Key T) ≠ ⟨t, id⟩ := by
      intro heq
      cases heq
      exact hk rfl
    have hhistory : (⟨some (tx.write t id m v evs), { s with seq := s.seq + d }⟩ : Conn T).history
        ⟨t, id'⟩ = (⟨some tx, s⟩ : Conn T).history ⟨t, id'⟩ := by
      rw [Conn.history_some, Conn.history_some, Tx.notes_write, noted_append,
        noted_write_of_ne hkey, List.append_nil]
    rw [hhistory, Conn.view_some, Tx.view_write, Store.get_set_of_key_ne _ v hkey]
    exact h id'

/-- A row of another table. -/
theorem Conn.Obeys.write_other {tx : Tx T} {s : Server T} (h : (⟨some tx, s⟩ : Conn T).Obeys t L)
    {u : T} (hu : u ≠ t) {id : Id u} {m : LockMode} {v : Option (Row u)} {evs : List (Ev T)}
    {d : Nat} :
    (⟨some (tx.write u id m v evs), { s with seq := s.seq + d }⟩ : Conn T).Obeys t L := by
  intro id'
  have hkey : (⟨t, id'⟩ : Key T) ≠ ⟨u, id⟩ := by
    intro heq
    cases heq
    exact hu rfl
  have hhistory : (⟨some (tx.write u id m v evs), { s with seq := s.seq + d }⟩ : Conn T).history
      ⟨t, id'⟩ = (⟨some tx, s⟩ : Conn T).history ⟨t, id'⟩ := by
    rw [Conn.history_some, Conn.history_some, Tx.notes_write, noted_append,
      noted_write_of_ne hkey, List.append_nil]
  rw [hhistory, Conn.view_some, Tx.view_write, Store.get_set_of_key_ne _ v hkey]
  exact h id'

/-- A key with a number that is about to be drawn has no history. -/
theorem Conn.Wf.history_undrawn {c : Conn T} (hwf : c.Wf) {id : Id t}
    (hid : serialNo t id = some c.server.seq) : c.history ⟨t, id⟩ = [] :=
  hwf.history_eq_nil (k := ⟨t, id⟩) hid le_rfl

/-! ## Acts that keep the law

An act writes one row at most, so a law is kept if every single change keeps it. `Made` says what
the change is, and that the act has told of it.
-/

/-- **What an act within `φ` does to a connection**: it draws numbers, takes a lock, or changes one
row as `φ` allows. -/
inductive Made (φ : Change T) : Conn T → Conn T → Prop where
  | draw (otx : Option (Tx T)) (s : Server T) (n : Nat) :
      Made φ ⟨otx, s⟩ ⟨otx, { s with seq := s.seq + n }⟩
  | acquire (tx : Tx T) (s : Server T) (k : Key T) (m : LockMode) :
      Made φ ⟨some tx, s⟩ ⟨some (tx.acquire k m), s⟩
  | write (tx : Tx T) (s : Server T) (t : T) (id : Id t) (m : LockMode) (v : Option (Row t))
      (evs : List (Ev T)) (d : Nat) (hφ : φ t id ((tx.view s.store).get t id) v evs)
      (hdrawn : (tx.view s.store).get t id = none → ∀ n, serialNo t id = some n → n = s.seq) :
      Made φ ⟨some tx, s⟩ ⟨some (tx.write t id m v evs), { s with seq := s.seq + d }⟩

theorem Act.Within.made {φ : Change T} {a : Act T} (ha : a.Within φ) (p : Nat) (c : Conn T) :
    Made φ c (a.step p c).2 := by
  obtain ⟨otx, s⟩ := c
  cases a with
  | begin | commit | rollback | note => cases ha
  | query | poolQuery | clock => exact .draw otx s 0
  | fresh => exact .draw otx s 1
  -- a lock writes nothing
  | lock t id m recheck =>
    cases otx with
    | none => exact .draw none s 0
    | some tx =>
      cases hr : (tx.view s.store).get t id with
      | none => simpa [Act.step, hr] using Made.draw (some tx) s 0
      | some r => simpa [Act.step, hr] using Made.acquire tx s ⟨t, id⟩ m
  | update t id recheck set evs ok =>
    cases otx with
    | none => exact .draw none s 0
    | some tx =>
      cases hr : (tx.view s.store).get t id with
      | none => simpa [Act.step, hr] using Made.draw (some tx) s 0
      | some r =>
        by_cases hc : recheck r = true
        · have hw : Made φ ⟨some tx, s⟩ _ := .write tx s t id .noKeyUpdate (some (set r)) (evs r) 0
            (by rw [hr]; exact ha r hc) (by simp [hr])
          simpa [Act.step, hr, hc] using hw
        · simpa [Act.step, hr, hc] using Made.acquire tx s ⟨t, id⟩ .noKeyUpdate
  | delete t id seen recheck ok =>
    cases otx with
    | none => exact .draw none s 0
    | some tx =>
      cases hsel : ((tx.view s.store).get t id).filter seen with
      | none => simpa [Act.step, hsel] using Made.draw (some tx) s 0
      | some r =>
        have hr : (tx.view s.store).get t id = some r := (Option.filter_eq_some_iff.1 hsel).1
        by_cases hc : recheck r = true
        · have hw : Made φ ⟨some tx, s⟩ _ := .write tx s t id .update none [] 0
            (by rw [hr]; exact ha r hc) (by simp [hr])
          simpa [Act.step, hsel, hc] using hw
        · simpa [Act.step, hsel, hc] using Made.acquire tx s ⟨t, id⟩ .update
  | insert t key row evs hkey ok =>
    cases otx with
    | none => exact .draw none s 1
    | some tx =>
      by_cases hb : (tx.view s.store).blocks t (key s.seq) (row s.seq) = true
      · simpa [Act.step, hb] using Made.draw (some tx) s 1
      · -- the key is free, as the unique index has checked
        have hnone : (tx.view s.store).get t (key s.seq) = none :=
          Store.get_of_blocks (by simpa using hb)
        have hw : Made φ ⟨some tx, s⟩ _ := .write tx s t (key s.seq) .update (some (row s.seq))
          (evs s.seq) 1 (by rw [hnone]; exact ha s.seq) fun _ n hn => hkey s.seq n hn
        simpa [Act.step, hb] using hw
  | upsert t id row set hkey okInsert okUpdate =>
    cases otx with
    | none => exact .draw none s 0
    | some tx =>
      cases hr : (tx.view s.store).get t id with
      | none =>
        have hw : Made φ ⟨some tx, s⟩ _ := .write tx s t id .update (some row) [] 0
          (by rw [hr]; exact ha.1) (by simp [hkey])
        simpa [Act.step, hr] using hw
      | some r =>
        cases hset : set r with
        | none => simpa [Act.step, hr, hset] using Made.acquire tx s ⟨t, id⟩ .noKeyUpdate
        | some r' =>
          have hw : Made φ ⟨some tx, s⟩ _ := .write tx s t id .noKeyUpdate (some r') [] 0
            (by rw [hr]; exact ha.2 r r' hset) (by simp [hr])
          simpa [Act.step, hr, hset] using hw

/-- Every change of `φ` takes a row that obeys the law to one that does. A new row with a drawn key
has no history. -/
def Keeps (φ : Change T) (t : T) (L : Id t → Option (Row t) → List (Ev T) → Prop) : Prop :=
  ∀ id old new evs before, φ t id old new evs →
    (old = none → (serialNo t id).isSome → before = []) → L id old before →
      L id new (before ++ evs)

/-- **Changes that keep the law**, one by one. -/
theorem Made.obeys {φ : Change T} (hφ : Keeps φ t L) {c c' : Conn T} (hm : Made φ c c')
    (hwf : c.Wf) (h : c.Obeys t L) : c'.Obeys t L := by
  cases hm with
  | draw otx s n =>
    intro id
    cases otx <;> exact h id
  | acquire tx s k m => exact h
  | write tx s u id m v evs d hchange hdrawn =>
    by_cases hu : u = t
    · subst hu
      refine h.write (hφ id _ v evs _ hchange (fun hnone hserial => ?_) (h id))
      obtain ⟨n, hn⟩ := Option.isSome_iff_exists.1 hserial
      have hseq : n = s.seq := hdrawn hnone n hn
      exact hwf.history_undrawn (by rw [hn, hseq])
    · exact h.write_other hu

/-- What one act within `φ` notes is about the row that it changes. -/
theorem Made.notes {φ : Change T} {c c' : Conn T} (hm : Made φ c c') :
    ∃ ns, c'.notes = c.notes ++ ns ∧ ∀ n ∈ ns, ∃ k : Key T, n.1 = some k ∧
      ∃ old new evs, φ k.1 k.2 old new evs ∧ n.2 ∈ evs := by
  cases hm with
  | draw otx s n =>
    refine ⟨[], ?_, by simp⟩
    cases otx <;> simp
  | acquire tx s k m => exact ⟨[], by simp, by simp⟩
  | write tx s t id m v evs d hφ hdrawn =>
    refine ⟨_, Tx.notes_write tx t id m v evs, fun n hn => ?_⟩
    obtain ⟨e, he, rfl⟩ := List.mem_map.1 hn
    exact ⟨⟨t, id⟩, rfl, _, _, evs, hφ, he⟩

/-! ## What one program has committed

The number of a program marks its entries in the journal. An event that can happen to a row only
once therefore tells which program has made it happen.
-/

/-- Program `p` has committed the event about `k`. -/
def Logged (log : List (Entry T)) (p : Nat) (k : Key T) (e : Ev T) : Prop := ⟨p, some k, e⟩ ∈ log

/-- Two members of a list of at most one element are the same. -/
theorem eq_of_length_le_one {α : Type} {l : List α} (hl : l.length ≤ 1) {a b : α} (ha : a ∈ l)
    (hb : b ∈ l) : a = b := by
  obtain ⟨c, hc⟩ := List.length_eq_one_iff.1 (Nat.le_antisymm hl (List.length_pos_of_mem ha))
  rw [hc, List.mem_singleton] at ha hb
  rw [ha, hb]

/-- Distinct images of a list have distinct sources. -/
theorem eq_of_nodup_filterMap {α β : Type} {f : α → Option β} {l : List α}
    (h : (l.filterMap f).Nodup) {a b : α} (ha : a ∈ l) (hb : b ∈ l) {x : β} (hfa : f a = some x)
    (hfb : f b = some x) : a = b := by
  induction l with
  | nil => cases ha
  | cons c l ih =>
    -- an element behind the head with the image of the head would repeat it
    have hhead : ∀ d ∈ l, f c = some x → f d = some x → False := by
      intro d hd hc hfd
      rw [List.filterMap_cons_some hc] at h
      exact (List.nodup_cons.1 h).1 (List.mem_filterMap.2 ⟨d, hd, hfd⟩)
    have htail : (l.filterMap f).Nodup := by
      cases hc : f c with
      | none => rwa [List.filterMap_cons_none hc] at h
      | some y =>
        rw [List.filterMap_cons_some hc] at h
        exact (List.nodup_cons.1 h).2
    rcases List.mem_cons.1 ha with rfl | ha' <;> rcases List.mem_cons.1 hb with rfl | hb'
    · rfl
    · exact (hhead b hb' hfa hfb).elim
    · exact (hhead a ha' hfb hfa).elim
    · exact ih htail ha' hb'

/-- What has been committed about a row is in its history. -/
theorem Logged.mem_history {log : List (Entry T)} {p : Nat} {k : Key T} {e : Ev T}
    (h : Logged log p k e) : e ∈ ReadCommitted.history log k :=
  ReadCommitted.mem_history.2 ⟨_, h, rfl, rfl⟩

/-- **An event that happens to a row at most once was committed by one program.** -/
theorem Logged.unique {log : List (Entry T)} {p q : Nat} {k : Key T} {e e' : Ev T}
    {good : Ev T → Bool} (hone : ((ReadCommitted.history log k).filter good).length ≤ 1)
    (h : Logged log p k e) (h' : Logged log q k e') (he : good e = true) (he' : good e' = true) : p = q ∧ e = e' := by
  have hlen : ((log.filter fun x => x.key = some k).filter fun x => good x.ev).length ≤ 1 := by
    unfold ReadCommitted.history at hone
    rw [List.filter_map, List.length_map] at hone
    exact hone
  have hmem : ∀ q' ev, Logged log q' k ev → good ev = true →
      (⟨q', some k, ev⟩ : Entry T) ∈
        (log.filter fun x => x.key = some k).filter fun x => good x.ev := by
    intro q' ev hlog hgood
    exact List.mem_filter.2 ⟨List.mem_filter.2 ⟨hlog, by simp⟩, hgood⟩
  have heq := eq_of_length_le_one hlen (hmem p e h he) (hmem q e' h' he')
  exact ⟨congrArg Entry.pid heq, congrArg Entry.ev heq⟩

/-- **The journal only grows.** -/
theorem Interferes.log_subset {I : Nat → Conn T → Prop} {cond : Nat → Conn T → Prop} {p : Nat}
    {c c' : Conn T} (hi : Interferes I cond p c c') : c.server.log ⊆ c'.server.log := by
  cases hi with
  | tick d => exact List.Subset.refl _
  | draw d => exact List.Subset.refl _
  | commit q tx hq hcompat hIq hcond =>
    rw [Server.commit_log]
    exact List.subset_append_left _ _

section Judge

variable {K : Contract T} {p : Nat} {P : Conn T → Prop}

theorem Contract.stable_logged (q : Nat) (k : Key T) (e : Ev T) :
    (K.judge p).Stable fun c => Logged c.server.log q k e :=
  fun _ _ hr hc => hr.2.2.2.2.log_subset hc

/-- **`COMMIT`**, with what it puts into the journal. -/
theorem Triple.commitLogged {J : Judge T} {Q : Conn T → Prop} (hst : J.Stable P)
    (hst' : J.Stable Q) (h : ∀ c, J.base c → P c → J.guar c)
    (hpost : ∀ tx s, J.base ⟨some tx, s⟩ → P ⟨some tx, s⟩ → Q ⟨none, s.commit p tx⟩)
    (hopen : ∀ c, P c → c.tx.isSome) :
    Triple J p P (ReadCommitted.commitTx : Prog T ε Unit) fun _ => Q := by
  refine Triple.perform (a := .commit) (Q := fun _ => Q) hst (fun _ => hst') fun c hb hc => ?_
  refine ⟨fun _ => h c hb hc, ?_⟩
  obtain ⟨otx, s⟩ := c
  cases otx with
  | none => cases hopen _ hc
  | some tx => exact hpost tx s hb hc

end Judge

end ReadCommitted
