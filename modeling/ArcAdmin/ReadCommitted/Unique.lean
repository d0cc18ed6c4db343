import ArcAdmin.ReadCommitted.Invariant

/-!
# Unique indexes

An insert waits for every transaction that is about to decide on a row its own would stand beside
in a unique index, and fails on a duplicate. A table whose keys are all drawn from a sequence, and
whose updates only ever take rows out of the index, therefore never holds two rows that clash,
whatever the programs do.

* **`Act.step_row`** — where a row that a connection sees after an act comes from;
* **`Config.Distinct`** — no clash in what is committed, in what any transaction sees, and between
  the undecided rows of any two;
* **`Index.reachable`** — it holds in every reachable configuration.
-/

namespace ReadCommitted

open Schema (Id Row Ev serialNo clash Allowed)

variable {T : Type} [Schema T] {ε ρ Req : Type}

/-! ## Where rows come from

One act changes one row at most. What a connection sees after it is therefore what it saw before,
or that one row.
-/

/-- Where the row `r'` that a connection sees under `id` after the act `a` comes from: it was there,
the act has changed it, or the act has inserted it. -/
inductive Act.RowSource (a : Act T) (tx : Tx T) (s : Server T) (t : T) (id : Id t) (r' : Row t) :
    Prop where
  | kept (h : (tx.view s.store).get t id = some r')
  | changed (r : Row t) (evs : List (Ev T)) (h : (tx.view s.store).get t id = some r)
      (hok : Allowed t id (some r) (some r') evs)
  | inserted (key : Nat → Id t) (row : Nat → Row t) (evs : Nat → List (Ev T))
      (hkey : ∀ n m, serialNo t (key n) = some m → m = n)
      (hok : ∀ n, Allowed t (key n) none (some (row n)) (evs n))
      (ha : a = .insert t key row evs hkey hok) (hid : id = key s.seq) (hr : r' = row s.seq)
      (hb : (tx.view s.store).blocks t id r' = false)
  | natural (h : serialNo t id = none)

/-- **Every row that a connection sees after an act has one of these sources.** -/
theorem Act.step_row (p : Nat) (a : Act T) {tx tx' : Tx T} {s : Server T}
    (htx : (a.step p ⟨some tx, s⟩).2.tx = some tx') (ha : a ≠ .begin) {t : T} {id : Id t}
    {r' : Row t} (hr' : (tx'.view (a.step p ⟨some tx, s⟩).2.server.store).get t id = some r') :
    a.RowSource tx s t id r' := by
  cases a with
  | begin => exact absurd rfl ha
  | commit => cases htx
  | rollback => cases htx
  | query | poolQuery | clock | fresh =>
    cases htx
    exact .kept hr'
  | note e =>
    cases htx
    exact .kept hr'
  | lock u i m recheck =>
    cases hr : (tx.view s.store).get u i with
    | none =>
      simp [Act.step, hr] at htx hr'
      subst htx
      exact .kept hr'
    | some r =>
      simp [Act.step, hr] at htx hr'
      subst htx
      exact .kept hr'
  | update u i recheck set evs ok =>
    cases hr : (tx.view s.store).get u i with
    | none =>
      simp [Act.step, hr] at htx hr'
      subst htx
      exact .kept hr'
    | some r =>
      by_cases hc : recheck r = true
      · simp [Act.step, hr, hc] at htx hr'
        subst htx
        -- the row itself, or another one
        by_cases hk : (⟨t, id⟩ : Key T) = ⟨u, i⟩
        · cases hk
          simp only [Tx.view_write, Store.get_set_self, Option.some.injEq] at hr'
          subst hr'
          exact .changed r (evs r) hr (ok r hc)
        · rw [Tx.view_write, Store.get_set_of_key_ne _ _ hk] at hr'
          exact .kept hr'
      · simp [Act.step, hr, hc] at htx hr'
        subst htx
        exact .kept hr'
  | delete u i seen recheck ok =>
    cases hsel : ((tx.view s.store).get u i).filter seen with
    | none =>
      simp [Act.step, hsel] at htx hr'
      subst htx
      exact .kept hr'
    | some r =>
      by_cases hc : recheck r = true
      · simp [Act.step, hsel, hc] at htx hr'
        subst htx
        by_cases hk : (⟨t, id⟩ : Key T) = ⟨u, i⟩
        · cases hk
          simp at hr'
        · rw [Tx.view_write, Store.get_set_of_key_ne _ _ hk] at hr'
          exact .kept hr'
      · simp [Act.step, hsel, hc] at htx hr'
        subst htx
        exact .kept hr'
  -- an insertion: the unique index has let the row pass
  | insert u key row evs hkey ok =>
    by_cases hb : (tx.view s.store).blocks u (key s.seq) (row s.seq) = true
    · simp [Act.step, hb] at htx hr'
      subst htx
      exact .kept hr'
    · simp [Act.step, hb] at htx hr'
      subst htx
      by_cases hk : (⟨t, id⟩ : Key T) = ⟨u, key s.seq⟩
      · cases hk
        simp only [Tx.view_write, Store.get_set_self, Option.some.injEq] at hr'
        subst hr'
        exact .inserted key row evs hkey ok rfl rfl rfl (by simpa using hb)
      · rw [Tx.view_write, Store.get_set_of_key_ne _ _ hk] at hr'
        exact .kept hr'
  -- an upsert inserts under a natural key, or changes the row there is
  | upsert u i row set hkey okInsert okUpdate =>
    cases hr : (tx.view s.store).get u i with
    | none =>
      simp [Act.step, hr] at htx hr'
      subst htx
      by_cases hk : (⟨t, id⟩ : Key T) = ⟨u, i⟩
      · cases hk
        exact .natural hkey
      · rw [Tx.view_write, Store.get_set_of_key_ne _ _ hk] at hr'
        exact .kept hr'
    | some r =>
      cases hset : set r with
      | none =>
        simp [Act.step, hr, hset] at htx hr'
        subst htx
        exact .kept hr'
      | some new =>
        simp [Act.step, hr, hset] at htx hr'
        subst htx
        by_cases hk : (⟨t, id⟩ : Key T) = ⟨u, i⟩
        · cases hk
          simp only [Tx.view_write, Store.get_set_self, Option.some.injEq] at hr'
          subst hr'
          exact .changed r [] hr (okUpdate r new hset)
        · rw [Tx.view_write, Store.get_set_of_key_ne _ _ hk] at hr'
          exact .kept hr'

/-! ## No two rows clash

The index is checked against what the inserting transaction sees. That this is enough rests on
waiting: no other transaction has an undecided row that would clash, so what the others commit
meanwhile is no danger.
-/

/-- No two rows of the table stand in a unique index together. -/
def Store.Distinct (s : Store T) (t : T) : Prop :=
  ∀ id id' r r', id ≠ id' → s.get t id = some r → s.get t id' = some r' → clash t r r' = false

/-- No undecided row of one transaction stands in a unique index with one of the other. -/
def Tx.Apart (tx tx' : Tx T) (s : Store T) (t : T) : Prop :=
  ∀ id id' r r', tx.Owns ⟨t, id⟩ → tx'.Owns ⟨t, id'⟩ → (tx.view s).get t id = some r →
    (tx'.view s).get t id' = some r' → clash t r r' = false

/-- **No clash anywhere**: in what is committed, in what any transaction sees, and between the
undecided rows of any two transactions. -/
structure Config.Distinct (C : Config T ε ρ Req) (t : T) : Prop where
  store : C.server.store.Distinct t
  views : ∀ p tx, C.tx p = some tx → (tx.view C.server.store).Distinct t
  apart : ∀ p q, p ≠ q → ∀ tx tx', C.tx p = some tx → C.tx q = some tx' →
    tx.Apart tx' C.server.store t

/-- **A table whose unique indexes the row protocol respects**: its keys come from a sequence, and
an update only takes rows out of the indexes. -/
structure Index (t : T) : Prop where
  symm : ∀ r r', clash t r r' = clash t r' r
  serial : ∀ id, (serialNo t id).isSome
  shrinks : ∀ id r r' x evs, Allowed t id (some r) (some r') evs →
    clash t r x = false → clash t r' x = false

namespace Index

variable {t : T} {prog : Req → Prog T ε ρ} {cond : Nat → Conn T → Prop} {s₀ : Server T}
  {C C' : Config T ε ρ Req}

/-- A transaction that owns a row nobody else owns sees it as one of the others sees it, or it is
an undecided row of its own. -/
theorem clear_of_owned (hD : C.Distinct t) {p q : Nat} (hpq : p ≠ q)
    {tx txq : Tx T} (htx : C.tx p = some tx) (htxq : C.tx q = some txq)
    (hwf : tx.Wf C.server) (hwfq : txq.Wf C.server) {id id' : Id t} {r x : Row t}
    (hfree : ¬txq.Owns ⟨t, id⟩) (hx : txq.Owns ⟨t, id'⟩)
    (hr : (tx.view C.server.store).get t id = some r)
    (hxr : (txq.view C.server.store).get t id' = some x) : clash t r x = false := by
  by_cases ho : tx.Owns ⟨t, id⟩
  · exact hD.apart p q hpq tx txq htx htxq id id' r x ho hx hr hxr
  · have hne : id ≠ id' := by
      rintro rfl
      exact hfree hx
    rw [hwf.view_get _ ho] at hr
    rw [← hwfq.view_get _ hfree] at hr
    exact hD.views q txq htxq id id' r x hne hr hxr

/-- **Where a row comes from, as far as the indexes go**: it stands in an index only where a row
stood before, or it has been inserted. -/
theorem source_cases (h : Index t) {a : Act T} {tx : Tx T} {s : Server T} {id : Id t} {r' : Row t}
    (hs : a.RowSource tx s t id r') :
    (∃ r, (tx.view s.store).get t id = some r ∧
        ∀ x, clash t r x = false → clash t r' x = false) ∨
      ((tx.view s.store).blocks t id r' = false ∧ ∃ key row evs hkey hok,
        a = .insert t key row evs hkey hok ∧ id = key s.seq ∧ r' = row s.seq) := by
  cases hs with
  | kept hr => exact .inl ⟨r', hr, fun _ hx => hx⟩
  | changed r evs hr hok => exact .inl ⟨r, hr, fun x hx => h.shrinks id r r' x evs hok hx⟩
  | inserted key row evs hkey hok ha hid hr hb =>
    exact .inr ⟨hb, key, row, evs, hkey, hok, ha, hid, hr⟩
  | natural hn =>
    have hserial := h.serial id
    rw [hn] at hserial
    cases hserial

/-- Rows that come from distinct rows, or from one insert beside them, are distinct. -/
theorem distinct_of_source (h : Index t) {a : Act T} {tx : Tx T} {s : Server T}
    (hD : (tx.view s.store).Distinct t) {id id' : Id t} {r r' : Row t} (hne : id ≠ id')
    (hr : a.RowSource tx s t id r) (hr' : a.RowSource tx s t id' r') : clash t r r' = false := by
  have hbeside : ∀ (id id' : Id t) (r o : Row t), (tx.view s.store).blocks t id r = false →
      (tx.view s.store).get t id' = some o → clash t o r = false := by
    intro id id' r o hb ho
    simp only [Store.blocks, Bool.or_eq_false_iff, List.any_eq_false] at hb
    simpa using hb.2 (id', o) (Store.mem_rows.2 ho)
  rcases h.source_cases hr with ⟨o, ho, himp⟩ | ⟨hb, key, row, evs, hkey, hok, ha, hid, _⟩
  · refine himp r' ?_
    rw [h.symm]
    rcases h.source_cases hr' with ⟨o', ho', himp'⟩ | ⟨hb', _⟩
    · refine himp' o ?_
      rw [h.symm]
      exact hD id id' o o' hne ho ho'
    · rw [h.symm]
      exact hbeside id' id r' o hb' ho
  · rw [h.symm]
    rcases h.source_cases hr' with ⟨o', ho', himp'⟩ | ⟨_, key', row', evs', hkey', hok', ha', hid', _⟩
    · exact himp' r (hbeside id id' r o' hb ho')
    · rw [ha] at ha'
      cases ha'
      exact absurd (hid.trans hid'.symm) hne

/-- **An act that is not a commit keeps the tables free of clashes.** -/
theorem act (h : Index t) (hD : C.Distinct t) {p : Nat} {req : Req} {a : Act T}
    {k : a.Res → Prog T ε ρ} (hen : C.Enabled p a) (ha : a ≠ .commit)
    (hwf : ∀ q, (C.conn q).Wf) (hex : (C.perform p req a k).LocksExclude) :
    (C.perform p req a k).Distinct t := by
  have hserver : (C.perform p req a k).server.store = C.server.store := by
    rw [Config.server_perform]
    rcases a.step_server p (C.conn p) with ⟨d, hs⟩ | ⟨tx, _, hc, _⟩
    · rw [hs]
      rfl
    · exact absurd hc ha
  have hself : (C.perform p req a k).tx p = (a.step p (C.conn p)).2.tx := by
    have hconn := C.conn_perform_self p req a k
    rw [← hconn]
    rfl
  have hstore : (a.step p (C.conn p)).2.server.store = C.server.store := by
    rw [← hserver, Config.server_perform]
  -- what the acting connection sees afterwards
  have hviews : ∀ tx', (a.step p (C.conn p)).2.tx = some tx' →
      (tx'.view C.server.store).Distinct t ∧ ∀ q, q ≠ p → ∀ txq, C.tx q = some txq →
        tx'.Apart txq C.server.store t := by
    intro tx' htx'
    by_cases hbegin : a = .begin
    · -- a new transaction sees what is committed, and owns nothing
      subst hbegin
      cases htx'
      refine ⟨hD.store, fun q _ txq _ id id' r r' ho => ?_⟩
      obtain ⟨m, _, hmem⟩ := ho
      cases hmem
    cases htx : C.tx p with
    | none =>
      have hconn : C.conn p = ⟨none, C.server⟩ := by simp [Config.conn, htx]
      rw [hconn] at htx'
      cases a <;> simp [Act.step] at htx' hbegin
    | some tx =>
      have hconn : C.conn p = ⟨some tx, C.server⟩ := by simp [Config.conn, htx]
      have hwfp : tx.Wf C.server := (hwf p).2 tx htx
      have hst : (a.step p ⟨some tx, C.server⟩).2.server.store = C.server.store := by
        rw [← hconn]
        exact hstore
      have hopen : (a.step p ⟨some tx, C.server⟩).2.tx = some tx' := by
        rw [← hconn]
        exact htx'
      have hrow : ∀ (id : Id t) (r' : Row t), (tx'.view C.server.store).get t id = some r' →
          a.RowSource tx C.server t id r' := by
        intro id r' hr'
        rw [← hst] at hr'
        exact a.step_row p hopen hbegin hr'
      constructor
      · intro id id' r r' hne hr hr'
        exact h.distinct_of_source (hD.views p tx htx) hne (hrow id r hr) (hrow id' r' hr')
      · intro q hq txq htxq id id' r x ho hx hr hxr
        have hwfq : txq.Wf C.server := (hwf q).2 txq htxq
        -- the other transaction does not own the row: locks exclude each other
        have hfree : ¬txq.Owns ⟨t, id⟩ := by
          have hp' : (C.perform p req a k).tx p = some tx' := by rw [hself, htx']
          have hq' : (C.perform p req a k).tx q = some txq := by
            rw [C.tx_perform_of_ne req a k hq]
            exact htxq
          exact (hex p q (Ne.symm hq) tx' txq hp' hq').not_owns ho
        rcases h.source_cases (hrow id r hr) with
          ⟨o, hro, himp⟩ | ⟨_, key, row, evs, hkey, hok, rfl, _, hrr⟩
        · exact himp x (clear_of_owned hD (Ne.symm hq) htx htxq hwfp hwfq hfree hx hro hxr)
        · have hfalse : clash t x (row C.server.seq) = false :=
            hen.2 q hq txq htxq id' hx x (.inr hxr)
          rw [hrr, h.symm]
          exact hfalse
  constructor
  · rw [hserver]
    exact hD.store
  · intro q tx htx
    rw [hserver]
    by_cases hq : q = p
    · subst hq
      rw [hself] at htx
      exact (hviews tx htx).1
    · rw [C.tx_perform_of_ne req a k hq] at htx
      exact hD.views q tx htx
  · intro q r hqr tx tx' htx htx'
    rw [hserver]
    by_cases hq : q = p
    · subst hq
      rw [hself] at htx
      rw [C.tx_perform_of_ne req a k (Ne.symm hqr)] at htx'
      exact (hviews tx htx).2 r (Ne.symm hqr) tx' htx'
    · rw [C.tx_perform_of_ne req a k hq] at htx
      by_cases hr : r = p
      · subst hr
        rw [hself] at htx'
        intro id id' x y ho ho' hx hy
        rw [h.symm]
        exact (hviews tx' htx').2 q hqr tx htx id' id y x ho' ho hy hx
      · rw [C.tx_perform_of_ne req a k hr] at htx'
        exact hD.apart q r hqr tx tx' htx htx'

/-- **A commit keeps the tables free of clashes.** -/
theorem commit (h : Index t) (hD : C.Distinct t) {p : Nat} {req : Req}
    {k : Act.Res (T := T) .commit → Prog T ε ρ} (hwf : ∀ q, (C.conn q).Wf)
    (hex : C.LocksExclude) : (C.perform p req .commit k).Distinct t := by
  have hself : (C.perform p req .commit k).tx p = none := by
    have hconn := C.conn_perform_self p req .commit k
    have htx : (C.perform p req .commit k).tx p = ((C.perform p req .commit k).conn p).tx := rfl
    rw [htx, hconn]
    simp only [Act.step]
    cases hp : (C.conn p).tx <;> simp [hp]
  cases htx : C.tx p with
  | none =>
    -- nothing was open: nothing changes
    have hserver : (C.perform p req .commit k).server = C.server := by
      simp [Config.conn, htx, Act.step]
    have htxs : ∀ q, (C.perform p req .commit k).tx q = C.tx q := by
      intro q
      by_cases hq : q = p
      · subst hq
        rw [hself, htx]
      · exact C.tx_perform_of_ne req .commit k hq
    refine ⟨by rw [hserver]; exact hD.store, fun q tx hq => ?_, fun q r hqr tx tx' hq hr => ?_⟩
    · rw [htxs] at hq
      rw [hserver]
      exact hD.views q tx hq
    · rw [htxs] at hq hr
      rw [hserver]
      exact hD.apart q r hqr tx tx' hq hr
  | some tx =>
    have hwfp : tx.Wf C.server := (hwf p).2 tx htx
    have hserver : (C.perform p req .commit k).server.store = tx.view C.server.store := by
      simp [Config.conn, htx, Act.step]
    -- a row that another transaction owns has not changed
    have howned : ∀ q, q ≠ p → ∀ txq, C.tx q = some txq → ∀ id : Id t, txq.Owns ⟨t, id⟩ →
        (txq.view (tx.view C.server.store)).get t id = (txq.view C.server.store).get t id := by
      intro q hq txq htxq id ho
      have hno := (hex q p hq txq tx htxq htx).not_owns ho
      exact txq.view_get_congr t id (hwfp.view_get _ hno)
    -- every other row it sees is the committer's
    have hother : ∀ q, q ≠ p → ∀ txq, C.tx q = some txq → ∀ id : Id t, ¬txq.Owns ⟨t, id⟩ →
        (txq.view (tx.view C.server.store)).get t id = (tx.view C.server.store).get t id := by
      intro q hq txq htxq id ho
      exact ((hwf q).2 txq htxq).view_get _ ho
    -- an owned row of another transaction against a row of the committer
    have hmixed : ∀ q, q ≠ p → ∀ txq, C.tx q = some txq → ∀ (id id' : Id t) r x,
        ¬txq.Owns ⟨t, id⟩ → txq.Owns ⟨t, id'⟩ → (tx.view C.server.store).get t id = some r →
        (txq.view C.server.store).get t id' = some x → clash t r x = false := by
      intro q hq txq htxq id id' r x hfree hx hr hxr
      exact clear_of_owned hD (Ne.symm hq) htx htxq hwfp ((hwf q).2 txq htxq) hfree hx hr hxr
    refine ⟨by rw [hserver]; exact hD.views p tx htx, fun q txq hq => ?_, fun q r hqr tx₁ tx₂ h₁ h₂ => ?_⟩
    · by_cases hqp : q = p
      · subst hqp
        rw [hself] at hq
        cases hq
      rw [C.tx_perform_of_ne req .commit k hqp] at hq
      rw [hserver]
      intro id id' r r' hne hr hr'
      by_cases ho : txq.Owns ⟨t, id⟩ <;> by_cases ho' : txq.Owns ⟨t, id'⟩
      · rw [howned q hqp txq hq id ho] at hr
        rw [howned q hqp txq hq id' ho'] at hr'
        exact hD.views q txq hq id id' r r' hne hr hr'
      · rw [howned q hqp txq hq id ho] at hr
        rw [hother q hqp txq hq id' ho'] at hr'
        rw [h.symm]
        exact hmixed q hqp txq hq id' id r' r ho' ho hr' hr
      · rw [hother q hqp txq hq id ho] at hr
        rw [howned q hqp txq hq id' ho'] at hr'
        exact hmixed q hqp txq hq id id' r r' ho ho' hr hr'
      · rw [hother q hqp txq hq id ho] at hr
        rw [hother q hqp txq hq id' ho'] at hr'
        exact hD.views p tx htx id id' r r' hne hr hr'
    · have hq : q ≠ p := by
        rintro rfl
        rw [hself] at h₁
        cases h₁
      have hr : r ≠ p := by
        rintro rfl
        rw [hself] at h₂
        cases h₂
      rw [C.tx_perform_of_ne req .commit k hq] at h₁
      rw [C.tx_perform_of_ne req .commit k hr] at h₂
      rw [hserver]
      intro id id' x y ho ho' hx hy
      rw [howned q hq tx₁ h₁ id ho] at hx
      rw [howned r hr tx₂ h₂ id' ho'] at hy
      exact hD.apart q r hqr tx₁ tx₂ h₁ h₂ id id' x y ho ho' hx hy

/-- A connection that has no transaction any more does no harm. -/
theorem setProc (hD : C.Distinct t) {p : Nat} {pr : Option (Proc T ε ρ Req)}
    (hpr : ∀ pr', pr = some pr' → pr'.tx = none) : (C.setProc p pr).Distinct t := by
  have hself : (C.setProc p pr).tx p = none := by
    cases pr with
    | none => simp [Config.tx_setProc_self]
    | some pr' => simp [Config.tx_setProc_self, hpr pr' rfl]
  have htx : ∀ q tx, (C.setProc p pr).tx q = some tx → C.tx q = some tx := by
    intro q tx hq
    by_cases hqp : q = p
    · subst hqp
      rw [hself] at hq
      cases hq
    · rw [C.tx_setProc_of_ne pr hqp] at hq
      exact hq
  exact ⟨hD.store, fun q tx hq => hD.views q tx (htx q tx hq),
    fun q r hqr tx tx' hq hr => hD.apart q r hqr tx tx' (htx q tx hq) (htx r tx' hr)⟩

/-- **No reachable configuration holds two rows that stand in a unique index together.** -/
theorem reachable (h : Index t) (h₀ : s₀.Wf) (hs₀ : s₀.store.Distinct t)
    (hC : ReachableIf prog cond s₀ C) : C.Distinct t := by
  induction hC with
  | refl =>
    refine ⟨hs₀, fun p tx hp => ?_, fun p q _ tx tx' hp => ?_⟩ <;>
      rw [Config.tx_idle] at hp <;> cases hp
  | @tail C C' hreach hs ih =>
    have hwf : ∀ q, (C.conn q).Wf := fun q => ReachableIf.wf h₀ hreach q
    have hex : C.LocksExclude := ReachableIf.locksExclude hreach
    cases hs with
    | spawn req =>
      have hspawn : (C.setProc C.next (some ⟨req, none, prog req⟩)).Distinct t :=
        setProc ih fun pr' hpr => by cases hpr; rfl
      exact ⟨hspawn.store, hspawn.views, hspawn.apart⟩
    | drop p =>
      have hnone : ∀ pr', (none : Option (Proc T ε ρ Req)) = some pr' → pr'.tx = none := by
        intro pr' h
        cases h
      exact setProc ih hnone
    | tick d => exact ⟨ih.store, ih.views, ih.apart⟩
    | act p pr a k hp hcode hen hcond =>
      by_cases ha : a = .commit
      · subst ha
        exact h.commit ih hwf hex
      · have hstep : Step prog cond C (C.perform p pr.req a k) :=
          .act C p pr a k hp hcode hen hcond
        exact h.act ih hen ha hwf (ReachableIf.locksExclude (hreach.tail hstep))

end Index

end ReadCommitted
