import ArcAdmin.ReadCommitted.Renewal

/-!
# What a statement has missed

A `DELETE` or an `UPDATE` visits the rows that its snapshot selects. Rows that somebody else commits
after the snapshot are not among them, and nothing tells the transaction that they exist. What can be
said of the statement is what it has *not* missed: every committed row of the set that it is about is
locked by the transaction in the end, or was born after the snapshot was taken.

A row is born where it is inserted, which leaves an event about it, and grows older with every change.
Between two moments a row that is stored at the later one was stored at the earlier one already, in a
younger version, or it was born in between; the journal tells which.

* **`Origin`** — how the rows of a table are born and grow older;
* **`Origin.reachable`** — in every reachable configuration, what a transaction sees is a later version
  of what is committed, or a row whose birth it has noted;
* **`Conn.Swept`** — the connection has locked all that was committed of a set at some moment;
* **`Triple.sweepDelete`**, **`Triple.sweepUpdate`** — the statements that achieve it;
* **`Conn.Swept.owns`** — if no row of the set was born since that moment, the connection has locked
  all that it sees of the set.
-/

namespace ReadCommitted

open Schema (Id Row Ev serialNo clash Allowed)

variable {T : Type} [Schema T] {ε α ρ Req : Type}

/-! ## Births

The relation between a row and what becomes of it is given with the table. That a step of the row
protocol makes a later row of a row, or leaves a birth, is all that is asked of it.
-/

/-- **How the rows of a table are born and grow older.** `later r₀ r` says that `r` may have become of
`r₀`, and `born r e` that `e` is the birth of a row that may have become `r`. A step of the row protocol
makes a later row of a row, or leaves a birth. -/
structure Origin (t : T) where
  later : Row t → Row t → Prop
  refl : ∀ r, later r r
  trans : ∀ {r₀ r₁ r₂}, later r₀ r₁ → later r₁ r₂ → later r₀ r₂
  born : Row t → Ev T → Prop
  born_later : ∀ {r₀ r e}, later r₀ r → born r₀ e → born r e
  step : ∀ {id old new evs}, Allowed t id old (some new) evs →
    (∃ r₀, old = some r₀ ∧ later r₀ new) ∨ ∃ e ∈ evs, born new e

namespace Origin

variable {t : T} (O : Origin t)

/-- The row `r` has become of the row that was there, or was born with one of the events. -/
def Comes (old : Option (Row t)) (evs : List (Ev T)) (r : Row t) : Prop :=
  (∃ r₀, old = some r₀ ∧ O.later r₀ r) ∨ ∃ e ∈ evs, O.born r e

variable {O} {p : Nat} {c c' : Conn T}

/-- What comes of a row that has come of another one has come of that one too. -/
theorem Comes.step {old v : Option (Row t)} {evs evs' : List (Ev T)} {r : Row t}
    (h : ∀ r₁, v = some r₁ → O.Comes old evs r₁) (hstep : O.Comes v evs' r) :
    O.Comes old (evs ++ evs') r := by
  rcases hstep with ⟨r₁, hr₁, hlater⟩ | ⟨e, he, hborn⟩
  · rcases h r₁ hr₁ with ⟨r₀, hr₀, hlater₀⟩ | ⟨e, he, hborn⟩
    · exact .inl ⟨r₀, hr₀, O.trans hlater₀ hlater⟩
    · exact .inr ⟨e, List.mem_append_left _ he, O.born_later hlater hborn⟩
  · exact .inr ⟨e, List.mem_append_right _ he, hborn⟩

end Origin

/-- **Every row that the connection sees** has become of the committed one, or the connection has noted
its birth. -/
def Conn.Accounted {t : T} (c : Conn T) (O : Origin t) : Prop :=
  ∀ id r, c.view.get t id = some r → O.Comes (c.server.store.get t id) (ReadCommitted.noted c.notes ⟨t, id⟩) r

namespace Conn.Accounted

variable {t : T} {O : Origin t} {p : Nat} {c c' : Conn T}

/-- Whoever sees what is committed has nothing to account for. -/
theorem of_view_eq (h : ∀ id, c.view.get t id = c.server.store.get t id) : c.Accounted O := by
  intro id r hr
  rw [h id] at hr
  exact .inl ⟨r, hr, O.refl r⟩

/-- **Acts account for the rows that they write.** -/
theorem effect (h : c.Accounted O) (heff : Effect p c c') : c'.Accounted O := by
  cases heff with
  | same => exact h
  | begin => exact of_view_eq fun _ => rfl
  | commit => exact of_view_eq fun _ => rfl
  | rollback => exact of_view_eq fun _ => rfl
  | draw =>
    obtain ⟨otx, s⟩ := c
    cases otx <;> exact h
  | note tx s e =>
    intro id r hr
    have hnoted : ReadCommitted.noted (tx.notes ++ [(none, e)]) (⟨t, id⟩ : Key T) =
        ReadCommitted.noted tx.notes ⟨t, id⟩ := by
      simp [ReadCommitted.noted]
    rw [Conn.notes_some, hnoted]
    exact h id r hr
  | acquire => exact h
  | write tx s t' id' m v evs d hm hok hdrawn =>
    intro id r hr
    rw [Conn.view_some, Tx.view_write] at hr
    rw [Conn.notes_some, Tx.notes_write, noted_append]
    by_cases hk : (⟨t, id⟩ : Key T) = ⟨t', id'⟩
    · -- the row that is written comes of the row that the transaction saw
      cases hk
      rw [Store.get_set_self] at hr
      subst hr
      rw [noted_write_self]
      exact Origin.Comes.step (fun r₁ hr₁ => h id r₁ hr₁) (O.step hok)
    · rw [Store.get_set_of_key_ne _ v hk] at hr
      rw [noted_write_of_ne hk, List.append_nil]
      exact h id r hr

/-- **Interference leaves the accounts alone**: a row that others have written is seen as they have
committed it. -/
theorem interferes {I : Nat → Conn T → Prop} {cond : Nat → Conn T → Prop} (hwf : c.Wf)
    (hI : ∀ q c, I q c → c.Wf) (h : c.Accounted O) (hi : Interferes I cond p c c') :
    c'.Accounted O := by
  have hnotes : c'.notes = c.notes := by
    unfold Conn.notes
    rw [hi.tx_eq]
  intro id r hr
  rcases hwf.interferes_view hI hi t id with ⟨hview, hstore⟩ | ⟨_, hview⟩
  · rw [hstore, hnotes]
    rw [hview] at hr
    exact h id r hr
  · rw [hview] at hr
    exact .inl ⟨r, hr, O.refl r⟩

end Conn.Accounted

/-- **The accounts are right in every reachable configuration.** -/
theorem Origin.reachable {t : T} (O : Origin t) {prog : Req → Prog T ε ρ}
    {cond : Nat → Conn T → Prop} {s₀ : Server T} (h₀ : s₀.Wf) {C : Config T ε ρ Req}
    (h : ReachableIf prog cond s₀ C) (p : Nat) : (C.conn p).Accounted O := by
  refine (local_invariant (fun _ c => c.Wf ∧ c.Accounted O)
    (fun _ => ⟨⟨h₀, fun _ h => by cases h⟩, .of_view_eq fun _ => rfl⟩) ?_ ?_ h p).2
  · intro p a c hc _
    exact ⟨hc.1.effect (a.step_effect p c), hc.2.effect (a.step_effect p c)⟩
  · intro p c c' hc hi
    exact ⟨hc.1.interferes (fun _ _ h => h.1) hi, hc.2.interferes hc.1 (fun _ _ h => h.1) hi⟩

/-! ## Events of a transaction's own

An event that is about no row tells what the transaction as a whole has done, such as the moment
of a snapshot.
-/

/-- The open transaction has left that event of its own. -/
def Conn.Says (c : Conn T) (e : Ev T) : Prop := c.tx.isSome → (none, e) ∈ c.notes

namespace Conn.Says

variable {c c' : Conn T} {e : Ev T}

theorem framed {φ : Change T} (hf : Framed φ c c') (h : c.Says e) : c'.Says e := by
  intro hopen
  rcases hf.tx with ⟨_, hnone⟩ | ⟨tx, tx', htx, htx', _, _, ns, hns, _⟩
  · rw [hnone] at hopen
    cases hopen
  · have hold : (none, e) ∈ c.notes := h (by rw [htx]; rfl)
    simp only [Conn.notes, htx, htx', hns] at hold ⊢
    exact List.mem_append_left _ hold

theorem noted (h : c.Says e) (e' : Ev T) : (c.noted e').Says e := by
  obtain ⟨otx, s⟩ := c
  cases otx with
  | none => rintro ⟨⟩
  | some tx => exact fun _ => List.mem_append_left _ (h rfl)

/-- Whoever has just noted it. -/
theorem of_noted (c : Conn T) (e : Ev T) : (c.noted e).Says e := by
  obtain ⟨otx, s⟩ := c
  cases otx with
  | none => rintro ⟨⟩
  | some tx => exact fun _ => List.mem_append_right _ (List.mem_singleton_self _)

theorem stable {J : Judge T} (hJ : J.Private) (e : Ev T) : J.Stable fun c => c.Says e := by
  intro c c' hr hc
  unfold Conn.Says Conn.notes at hc ⊢
  rw [hJ c c' hr]
  exact hc

end Conn.Says

/-! ## Swept sets

A row may leave the set as it grows older, but not enter it. What is committed of the set at the
end of a statement is therefore a later version of what was committed at its snapshot, or was born
since.
-/

/-- **A set of rows** that a row may leave as it grows older, but not enter. -/
structure Part {t : T} (O : Origin t) where
  Has : Id t → Row t → Prop
  has_of_later : ∀ {id r₀ r}, O.later r₀ r → Has id r → Has id r₀

/-- **The open transaction has locked all that is committed of the set**, but for the rows that were born
after the journal had length `a`, and those that it has yet to visit. -/
structure Conn.SweptBut {t : T} {O : Origin t} (c : Conn T) (S : Part O) (a : Nat)
    (todo : Id t → Row t → Prop) : Prop where
  asOf_le : a ≤ c.server.log.length
  covers : c.tx.isSome → ∀ id r, c.server.store.get t id = some r → S.Has id r →
    c.Owns ⟨t, id⟩ ∨ (∃ e ∈ c.server.since a ⟨t, id⟩, O.born r e) ∨ todo id r

/-- The same, where nothing is left to visit. -/
def Conn.Swept {t : T} {O : Origin t} (c : Conn T) (S : Part O) (a : Nat) : Prop :=
  c.SweptBut S a fun _ _ => False

/-- A statement with the snapshot `s` is on its way, and has visited the rows `visited`: it has yet to
visit what has become of the other rows of its snapshot. -/
def Conn.Sweeping {t : T} {O : Origin t} (c : Conn T) (S : Part O) (s : Snapshot T)
    (visited : List (Id t)) : Prop :=
  c.SweptBut S s.asOf fun id r => id ∉ visited ∧ ∃ r₀, s.store.get t id = some r₀ ∧ O.later r₀ r

namespace Conn.SweptBut

variable {t : T} {O : Origin t} {S : Part O} {a : Nat} {todo todo' : Id t → Row t → Prop}
  {c c' : Conn T}

/-- What is left to do may be described otherwise. -/
theorem mono (h : c.SweptBut S a todo) (htodo : ∀ id r, S.Has id r → todo id r → todo' id r) :
    c.SweptBut S a todo' where
  asOf_le := h.asOf_le
  covers hopen id r hr hS := (h.covers hopen id r hr hS).imp_right (·.imp_right (htodo id r hS))

/-- The acts of the transaction itself only take locks. -/
theorem framed {φ : Change T} (hf : Framed φ c c') (h : c.SweptBut S a todo) :
    c'.SweptBut S a todo where
  asOf_le := by
    rw [hf.log]
    exact h.asOf_le
  covers hopen id r hr hS := by
    rw [← hf.isSome] at hopen
    rw [hf.store] at hr
    have hsince : c'.server.since a ⟨t, id⟩ = c.server.since a ⟨t, id⟩ := by
      unfold Server.since
      rw [hf.log]
    rw [hsince]
    exact (h.covers hopen id r hr hS).imp_left hf.owns

theorem noted (h : c.SweptBut S a todo) (e : Ev T) : (c.noted e).SweptBut S a todo where
  asOf_le := h.asOf_le
  covers hopen id r hr hS := by
    rw [Conn.isSome_noted] at hopen
    rw [Conn.owns_noted]
    exact h.covers hopen id r hr hS

/-- Nothing happens to the set where the transaction works on other tables. -/
theorem aside (hs : Aside t c c') (h : c.SweptBut S a todo) : c'.SweptBut S a todo where
  asOf_le := by
    rw [hs.log]
    exact h.asOf_le
  covers hopen id r hr hS := by
    rw [← hs.opened] at hopen
    rw [hs.store] at hr
    have hsince : c'.server.since a ⟨t, id⟩ = c.server.since a ⟨t, id⟩ := by
      unfold Server.since
      rw [hs.log]
    rw [hsince, hs.owns]
    exact h.covers hopen id r hr hS

/-- **Interference**: what the others commit has become of what was committed, or is born now. -/
theorem interferes {I : Nat → Conn T → Prop} {cond : Nat → Conn T → Prop} {p : Nat}
    (hI : ∀ q c, I q c → c.Accounted O)
    (htodo : ∀ id r₀ r, O.later r₀ r → todo id r₀ → todo id r)
    (h : c.SweptBut S a todo) (hi : Interferes I cond p c c') : c'.SweptBut S a todo := by
  obtain ⟨otx, s⟩ := c
  cases hi with
  | tick d => exact ⟨h.asOf_le, h.covers⟩
  | draw d => exact ⟨h.asOf_le, h.covers⟩
  | commit q tx hq hcompat hIq hcond =>
    refine ⟨?_, fun hopen id r hr hS => ?_⟩
    · rw [Server.commit_log, List.length_append]
      exact Nat.le_trans h.asOf_le (Nat.le_add_right _ _)
    · rw [Server.since_commit h.asOf_le]
      rcases hI q _ hIq id r hr with ⟨r₀, hr₀, hlater⟩ | ⟨e, he, hborn⟩
      · -- the row was committed already, in a younger version
        rcases h.covers hopen id r₀ hr₀ (S.has_of_later hlater hS) with
          hown | ⟨e, he, hborn⟩ | hleft
        · exact .inl hown
        · exact .inr (.inl ⟨e, List.mem_append_left _ he, O.born_later hlater hborn⟩)
        · exact .inr (.inr (htodo id r₀ r hlater hleft))
      · exact .inr (.inl ⟨e, List.mem_append_right _ he, hborn⟩)

end Conn.SweptBut

namespace Conn.Swept

variable {t : T} {O : Origin t} {S : Part O} {a : Nat} {c c' : Conn T}

/-- **Where nothing was born since**, the transaction has locked all that it sees of the set. -/
theorem owns (h : c.Swept S a) (hwf : c.Wf) (hopen : c.tx.isSome)
    (hnew : ∀ id r, S.Has id r → ∀ e ∈ c.server.since a ⟨t, id⟩, ¬O.born r e) {id : Id t} {r : Row t}
    (hr : c.view.get t id = some r) (hS : S.Has id r) : c.Owns ⟨t, id⟩ := by
  by_contra hno
  rw [Conn.view_get_of_not_owns hwf hno] at hr
  rcases h.covers hopen id r hr hS with hown | ⟨e, he, hborn⟩ | hleft
  · exact hno hown
  · exact hnew id r hS e he hborn
  · exact hleft

end Conn.Swept

section Contract

variable {K : Contract T} {p : Nat} {t : T} {O : Origin t} {S : Part O}

/-- A contract that knows the accounts of every connection to be right. -/
def Contract.Accounts (K : Contract T) (O : Origin t) : Prop := ∀ p c, K.base p c → c.Accounted O

theorem Contract.stable_sweeping (hO : K.Accounts O) (s : Snapshot T) (visited : List (Id t)) :
    (K.judge p).Stable fun c => c.Sweeping S s visited := by
  intro c c' hr h
  refine Conn.SweptBut.interferes (fun q c hc => hO q c hc.1) (fun id r₀ r hlater => ?_) h
    hr.2.2.2.2
  rintro ⟨hid, r₁, hr₁, hlater₁⟩
  exact ⟨hid, r₁, hr₁, O.trans hlater₁ hlater⟩

theorem Contract.stable_swept (hO : K.Accounts O) (a : Nat) :
    (K.judge p).Stable fun c => c.Swept S a :=
  fun _ _ hr h => Conn.SweptBut.interferes (fun q c hc => hO q c hc.1) (fun _ _ _ _ h => h) h
    hr.2.2.2.2

/-! ## Statements that sweep

The invariant of the loop is `Conn.Sweeping`: what has been visited is locked, and what is still
to be visited has come of a row of the snapshot that is.
-/

/-- **The snapshot**: whatever is committed of the set is locked, or is in the snapshot. -/
theorem Triple.startSweep (hK : K.WellFormed) (hO : K.Accounts O) (S : Part O) :
    Triple (K.judge p) p (fun _ => True) (ReadCommitted.query : Prog T ε _)
      fun s c => c.Sweeping S s [] := by
  refine Triple.query (Judge.Stable.const _) (fun s => Contract.stable_sweeping hO s [])
    fun c hb _ => ⟨le_rfl, fun _ id r hr _ => ?_⟩
  by_cases ho : c.Owns ⟨t, id⟩
  · exact .inl ho
  · refine .inr (.inr ⟨List.not_mem_nil, r, ?_, O.refl r⟩)
    show c.view.get t id = some r
    rw [Conn.view_get_of_not_owns (hK p c hb.1) ho]
    exact hr

/-- **The visit of one row** locks what has become of it. -/
theorem Conn.Sweeping.visit {c : Conn T} {s : Snapshot T} {visited : List (Id t)} {id : Id t}
    {a : Act T} (hwf : c.Wf) (h : c.Sweeping S s visited) (hwithin : a.Within anything)
    (hlocks : ∀ r₀ r, s.store.get t id = some r₀ → O.later r₀ r → c.view.get t id = some r →
      c.tx.isSome → (a.step p c).2.Owns ⟨t, id⟩) :
    (a.step p c).2.Sweeping S s (visited ++ [id]) := by
  have hframed : Framed anything c (a.step p c).2 := hwithin.framed p c
  refine ⟨(h.framed hframed).asOf_le, fun hopen i r hr hS => ?_⟩
  rcases (h.framed hframed).covers hopen i r hr hS with hown | hborn | ⟨hi, r₀, hr₀, hlater⟩
  · exact .inl hown
  · exact .inr (.inl hborn)
  · by_cases heq : i = id
    · subst heq
      refine .inl ?_
      by_cases ho : c.Owns ⟨t, i⟩
      · exact hframed.owns ho
      · -- nobody has changed the row since it was committed
        rw [hframed.store, ← Conn.view_get_of_not_owns hwf ho] at hr
        rw [← hframed.isSome] at hopen
        exact hlocks r₀ r hr₀ hlater hr hopen
    · exact .inr (.inr ⟨by simp [hi, heq], r₀, hr₀, hlater⟩)

/-- All rows of the set that are in the snapshot have been visited. -/
theorem Conn.Sweeping.swept {c : Conn T} {s : Snapshot T} {cond : Id t → Row t → Bool}
    (h : c.Sweeping S s (s.matching t cond)) (hcond : ∀ id r, S.Has id r → cond id r = true) :
    c.Swept S s.asOf := by
  refine h.mono fun id r hS => ?_
  rintro ⟨hid, r₀, hr₀, hlater⟩
  refine hid (List.mem_map.2 ⟨(id, r₀), List.mem_filter.2 ⟨Store.mem_rows.2 hr₀, ?_⟩, rfl⟩)
  exact hcond id r₀ (S.has_of_later hlater hS)

/-- **`DELETE`** of a set: it leaves nothing of it that is committed and older than its snapshot. -/
theorem Triple.sweepDelete (hK : K.WellFormed) (hO : K.Accounts O) {d : Delete T t}
    {s : Snapshot T} (hcond : ∀ id r, S.Has id r → d.cond s id r = true)
    (hseen : ∀ id r₀ r, s.store.get t id = some r₀ → O.later r₀ r → d.seen s id r = true) :
    Triple (K.judge p) p (fun c => c.Sweeping S s []) (d.execOn s : Prog T ε _)
      fun _ c => c.Swept S s.asOf := by
  have hst : ∀ visited, (K.judge p).Stable fun c => c.Sweeping S s visited :=
    Contract.stable_sweeping hO s
  refine (Triple.visit (I := fun visited c => c.Sweeping S s visited) hst
    (fun visited id _ => ?_) []).post fun _ c hc => hc.swept hcond
  refine Triple.bind (R := fun _ c => c.Sweeping S s (visited ++ [id])) ?_ fun _ =>
    Triple.ret (hst _) fun _ _ hc => hc
  refine Triple.perform (hst visited) (fun _ => hst _) fun c hb hc => ⟨by rintro ⟨⟩, ?_⟩
  refine hc.visit (hK p c hb.1) (fun _ _ => trivial) fun r₀ r hr₀ hlater hr hopen => ?_
  -- whether the row is deleted or only tested, it is locked
  obtain ⟨otx, srv⟩ := c
  obtain ⟨tx, rfl⟩ := Option.isSome_iff_exists.1 hopen
  have hview : (tx.view srv.store).get t id = some r := hr
  have hsel : ((tx.view srv.store).get t id).filter (d.seen s id) = some r := by
    rw [hview, Option.filter_some, if_pos (hseen id r₀ r hr₀ hlater)]
  by_cases hc' : d.cond s id r = true
  · simp only [Act.step, Conn.view_some, hsel, hc', if_true]
    exact ⟨_, rfl, tx.owns_write t id _ _ rfl⟩
  · simp only [Act.step, Conn.view_some, hsel, hc', if_false, Bool.false_eq_true]
    exact ⟨_, rfl, .update, rfl, List.mem_cons_self⟩

/-- **`UPDATE`** of a set: it locks all of it that is committed and older than its snapshot. -/
theorem Triple.sweepUpdate (hK : K.WellFormed) (hO : K.Accounts O) {u : Update T t}
    {s : Snapshot T} (hcond : ∀ id r, S.Has id r → u.cond s id r = true) :
    Triple (K.judge p) p (fun c => c.Sweeping S s []) (u.execOn s : Prog T ε _)
      fun _ c => c.Swept S s.asOf := by
  have hst : ∀ visited, (K.judge p).Stable fun c => c.Sweeping S s visited :=
    Contract.stable_sweeping hO s
  refine (Triple.visit (I := fun visited c => c.Sweeping S s visited) hst
    (fun visited id _ => ?_) []).post fun _ c hc => hc.swept hcond
  refine Triple.perform (hst visited) (fun _ => hst _) fun c hb hc => ⟨by rintro ⟨⟩, ?_⟩
  refine hc.visit (hK p c hb.1) (fun _ _ => trivial) fun r₀ r hr₀ hlater hr hopen => ?_
  obtain ⟨otx, srv⟩ := c
  obtain ⟨tx, rfl⟩ := Option.isSome_iff_exists.1 hopen
  have hview : (tx.view srv.store).get t id = some r := hr
  by_cases hc' : u.cond s id r = true
  · simp only [Act.step, Conn.view_some, hview, hc', if_true]
    exact ⟨_, rfl, tx.owns_write t id _ _ rfl⟩
  · simp only [Act.step, Conn.view_some, hview, hc', if_false, Bool.false_eq_true]
    exact ⟨_, rfl, .noKeyUpdate, rfl, List.mem_cons_self⟩

/-- What is swept stays swept, whatever the transaction goes on to do. -/
theorem Triple.keepSwept (hO : K.Accounts O) {a : Nat} {m : Prog T ε α}
    (hm : m.All (Act.Within anything)) :
    Triple (K.judge p) p (fun c => c.Swept S a) m fun _ c => c.Swept S a :=
  Triple.within (Contract.stable_swept hO a) (fun _ _ hf h => h.framed hf) hm

/-- **A `DELETE`, and what follows it in the transaction.** The program returns how much of the journal
had been written at the snapshot of the `DELETE`. -/
theorem Triple.sweepThen (hK : K.WellFormed) (hO : K.Accounts O) {d : Delete T t}
    (hcond : ∀ s id r, S.Has id r → d.cond s id r = true)
    (hseen : ∀ (s : Snapshot T) id r₀ r, s.store.get t id = some r₀ → O.later r₀ r →
      d.seen s id r = true)
    {m : Prog T ε α} (hm : m.All (Act.Within anything)) :
    Triple (K.judge p) p (fun _ => True)
      (ReadCommitted.query >>= fun s => d.execOn s >>= fun _ => m >>= fun _ => .ret s.asOf)
      fun a c => c.Swept S a := by
  refine (Triple.startSweep hK hO S).bind fun s => ?_
  refine (Triple.sweepDelete hK hO (hcond s) (hseen s)).bind fun _ => ?_
  refine (Triple.keepSwept hO hm).bind fun _ => ?_
  exact Triple.ret (Contract.stable_swept hO _) fun _ _ hc => hc

end Contract

end ReadCommitted
