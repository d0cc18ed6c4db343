import ArcAdmin.ReadCommitted.World

/-!
# Facts about one connection, under interference

While a connection is between two acts, the others can do three things to it: let time pass, draw
numbers, and commit a transaction whose locks are compatible with its own (`Interferes`).

* **`local_step`**, **`local_invariant`** — a property of connections that every act keeps and that survives
  interference holds of every connection in every reachable configuration;
* **`Conn.Wf`** — the invariant every other argument rests on: a transaction writes, and leaves
  events about, only rows it has locked, and a drawn number is smaller than the next one;
* **`ReachableIf.wf`** — it holds in every run of every program;
* **`Interferes.view_of_owns`** — a row that a connection has locked stays as it is.
-/

namespace ReadCommitted

open Schema (Id Row Ev serialNo clash Allowed)

variable {T : Type} [Schema T] {ε ρ Req : Type}

/-- **Interference with connection `p`.** `I` is what is known of the committing connection, and
`cond` the restriction on the commits of the run. -/
inductive Interferes (I : Nat → Conn T → Prop) (cond : Nat → Conn T → Prop) (p : Nat) :
    Conn T → Conn T → Prop where
  | tick (c : Conn T) (d : Nat) :
      Interferes I cond p c ⟨c.tx, { c.server with clock := c.server.clock + d }⟩
  | draw (c : Conn T) (d : Nat) :
      Interferes I cond p c ⟨c.tx, { c.server with seq := c.server.seq + d }⟩
  | commit (c : Conn T) (q : Nat) (tx : Tx T) (hq : q ≠ p) (hcompat : c.CompatibleWith tx)
      (hI : I q ⟨some tx, c.server⟩) (hcond : cond q ⟨some tx, c.server⟩) :
      Interferes I cond p c ⟨c.tx, c.server.commit q tx⟩

theorem Interferes.tx_eq {I : Nat → Conn T → Prop} {cond : Nat → Conn T → Prop} {p : Nat}
    {c c' : Conn T} (h : Interferes I cond p c c') : c'.tx = c.tx := by
  cases h <;> rfl

/-- What an act of another connection does to the committed state. -/
theorem Act.step_server (p : Nat) (a : Act T) (c : Conn T) :
    (∃ d, (a.step p c).2.server = { c.server with seq := c.server.seq + d }) ∨
      (∃ tx, c.tx = some tx ∧ a = .commit ∧ (a.step p c).2.server = c.server.commit p tx) := by
  obtain ⟨otx, s⟩ := c
  cases a with
  | commit =>
    cases otx with
    | none => exact .inl ⟨0, rfl⟩
    | some tx => exact .inr ⟨tx, rfl, rfl, rfl⟩
  | begin | rollback | query | poolQuery | clock => exact .inl ⟨0, rfl⟩
  | fresh => exact .inl ⟨1, rfl⟩
  | note e => exact .inl ⟨0, by cases otx <;> rfl⟩
  | insert t key row evs hkey ok =>
    refine .inl ⟨1, ?_⟩
    cases otx with
    | none => rfl
    | some tx =>
      simp only [Act.step]
      split <;> rfl
  | lock | update | delete | upsert =>
    refine .inl ⟨0, ?_⟩
    cases otx with
    | none => rfl
    | some tx =>
      simp only [Act.step]
      repeat' split
      all_goals rfl

/-- The step from `C` to `C'` is the commit of a program that serves `req`. -/
def Config.Commits (C C' : Config T ε ρ Req) (req : Req) : Prop :=
  ∃ p pr k, C.procs p = some pr ∧ pr.req = req ∧ pr.code = .act .commit k ∧
    (C.tx p).isSome ∧ C' = C.perform p req .commit k

/-- **Such a step is taken by that program**, so the run allows it to commit. -/
theorem Config.Commits.cases {prog : Req → Prog T ε ρ} {cond : Nat → Conn T → Prop}
    {C C' : Config T ε ρ Req} {req : Req} (h : C.Commits C' req) (hs : Step prog cond C C') :
    ∃ p pr k tx, C.procs p = some pr ∧ pr.req = req ∧ pr.code = .act .commit k ∧
      C.conn p = ⟨some tx, C.server⟩ ∧ C'.server = C.server.commit p tx ∧
      cond p ⟨some tx, C.server⟩ := by
  obtain ⟨p, pr, k, hp, hreq, hcode, hopen, heq⟩ := h
  obtain ⟨tx, htx⟩ := Option.isSome_iff_exists.1 hopen
  have hconn : C.conn p = ⟨some tx, C.server⟩ := by
    rw [← htx]
    rfl
  have hproc : C'.procs p = some ⟨req, none, k ()⟩ := by
    rw [heq]
    simp [Config.perform, Config.setProc, hconn, Act.step]
  have hserver : C'.server = C.server.commit p tx := by
    rw [heq]
    simp [Config.perform, hconn, Act.step]
  have hclosed : C'.tx p = none := by simp [Config.tx, hproc]
  refine ⟨p, pr, k, tx, hp, hreq, hcode, hconn, hserver, ?_⟩
  -- no other step closes the transaction and keeps the program
  cases hs with
  | spawn req' =>
    have hnext := congrArg Config.next heq
    simp [Config.perform, Config.setProc] at hnext
  | drop q =>
    by_cases hpq : p = q
    · subst hpq
      simp [Config.setProc] at hproc
    · rw [C.tx_setProc_of_ne none hpq, htx] at hclosed
      cases hclosed
  | tick d =>
    have hsame : C.tx p = none := hclosed
    rw [htx] at hsame
    cases hsame
  | act q pr' a k' hq hcode' hen hcond =>
    by_cases hpq : p = q
    · subst hpq
      rw [hp] at hq
      cases hq
      rw [hcode] at hcode'
      cases hcode'
      rw [← hconn]
      exact hcond rfl
    · rw [C.tx_perform_of_ne pr'.req a k' hpq, htx] at hclosed
      cases hclosed

/-- **A step leaves what is committed alone, or it is the commit of one connection.** -/
theorem Step.commits {prog : Req → Prog T ε ρ} {cond : Nat → Conn T → Prop}
    {C C' : Config T ε ρ Req} (hs : Step prog cond C C') :
    (C'.server.store = C.server.store ∧ C'.server.log = C.server.log) ∨
      ∃ p pr k tx, C.procs p = some pr ∧ pr.code = .act .commit k ∧
        C.conn p = ⟨some tx, C.server⟩ ∧ C'.server = C.server.commit p tx ∧
        cond p ⟨some tx, C.server⟩ := by
  cases hs with
  | spawn req => exact .inl ⟨rfl, rfl⟩
  | drop p => exact .inl ⟨rfl, rfl⟩
  | tick d => exact .inl ⟨rfl, rfl⟩
  | act p pr a k hp hcode hen hcond =>
    rw [Config.server_perform]
    rcases a.step_server p (C.conn p) with ⟨d, hserver⟩ | ⟨tx, htx, rfl, hserver⟩
    · rw [hserver]
      exact .inl ⟨rfl, rfl⟩
    · have hconn : C.conn p = ⟨some tx, C.server⟩ := by
        rw [← htx]
        rfl
      refine .inr ⟨p, pr, k, tx, hp, hcode, hconn, hserver, ?_⟩
      rw [← hconn]
      exact hcond rfl

/-- The same, by the request that is served. -/
theorem Step.commits_of_request {prog : Req → Prog T ε ρ} {cond : Nat → Conn T → Prop}
    {C C' : Config T ε ρ Req} (hs : Step prog cond C C') :
    (C'.server.store = C.server.store ∧ C'.server.log = C.server.log) ∨
      ∃ req, C.Commits C' req := by
  cases hs with
  | spawn req => exact .inl ⟨rfl, rfl⟩
  | drop p => exact .inl ⟨rfl, rfl⟩
  | tick d => exact .inl ⟨rfl, rfl⟩
  | act p pr a k hp hcode hen hcond =>
    rcases a.step_server p (C.conn p) with ⟨d, hserver⟩ | ⟨tx, htx, rfl, hserver⟩
    · rw [Config.server_perform, hserver]
      exact .inl ⟨rfl, rfl⟩
    · have hopen : (C.tx p).isSome := by
        show (C.conn p).tx.isSome
        rw [htx]
        rfl
      exact .inr ⟨pr.req, p, pr, k, hp, rfl, hcode, hopen, rfl⟩

/-- **One step and a local property.** If every act of a connection keeps `I` and interference
keeps `I`, then a step of the world keeps `I` of every connection. -/
theorem local_step {prog : Req → Prog T ε ρ} {cond : Nat → Conn T → Prop} {I : Nat → Conn T → Prop}
    (own : ∀ p (a : Act T) c, I p c → (a = .commit → cond p c) → I p (a.step p c).2)
    (env : ∀ p c c', I p c → Interferes I cond p c c' → I p c')
    {C C' : Config T ε ρ Req} (hex : C.LocksExclude) (h : ∀ p, I p (C.conn p))
    (hs : Step prog cond C C') (p : Nat) : I p (C'.conn p) := by
  have hdrop : ∀ p, I p ⟨none, C.server⟩ := fun p =>
    own p .rollback (C.conn p) (h p) (fun h => by cases h)
  -- a process that starts or is dropped has no transaction open
  have hset : ∀ q pr, (∀ pr', pr = some pr' → pr'.tx = none) → I p ((C.setProc q pr).conn p) := by
    intro q pr hpr
    by_cases hpq : p = q
    · subst hpq
      have hconn : (C.setProc p pr).conn p = ⟨none, C.server⟩ := by
        cases pr with
        | none => simp [Config.conn, Config.tx, Config.setProc]
        | some pr' => simp [Config.conn, Config.tx, Config.setProc, hpr pr' rfl]
      rw [hconn]
      exact hdrop p
    · have hconn : (C.setProc q pr).conn p = C.conn p := by
        simp [Config.conn, C.tx_setProc_of_ne pr hpq]
      rw [hconn]
      exact h p
  cases hs with
  | spawn req => exact hset C.next _ fun pr' h => by cases h; rfl
  | drop q => exact hset q none fun pr' h => by cases h
  | tick d => exact env p _ _ (h p) (.tick _ d)
  | act q pr a k hq hcode hen hcond =>
    by_cases hpq : p = q
    · subst hpq
      rw [C.conn_perform_self]
      exact own p a _ (h p) hcond
    · -- the acting process leaves the transactions of the others alone
      have htx : (C.perform q pr.req a k).conn p =
          ⟨C.tx p, (a.step q (C.conn q)).2.server⟩ := by
        simp [Config.conn, C.tx_perform_of_ne pr.req a k hpq]
      rw [htx]
      -- what they see of it: a number drawn, or its commit
      rcases a.step_server q (C.conn q) with ⟨d, hserver⟩ | ⟨tx, htxq, rfl, hserver⟩
      · rw [hserver]
        exact env p _ _ (h p) (.draw (C.conn p) d)
      · rw [hserver]
        have hconn : (⟨some tx, (C.conn p).server⟩ : Conn T) = C.conn q := by
          rw [← htxq]
          rfl
        refine env p _ _ (h p) (.commit (C.conn p) q tx (Ne.symm hpq) ?_ ?_ ?_)
        · intro tx₁ htx₁
          exact hex p q hpq tx₁ tx htx₁ htxq
        · rw [hconn]
          exact h q
        · rw [hconn]
          exact hcond rfl

/-- **The rule for local invariants.** If every act of a connection keeps `I` and interference
keeps `I`, then `I` holds of every connection in every reachable configuration. -/
theorem local_invariant {prog : Req → Prog T ε ρ} {cond : Nat → Conn T → Prop} {s₀ : Server T}
    (I : Nat → Conn T → Prop) (init : ∀ p, I p ⟨none, s₀⟩)
    (own : ∀ p (a : Act T) c, I p c → (a = .commit → cond p c) → I p (a.step p c).2)
    (env : ∀ p c c', I p c → Interferes I cond p c c' → I p c')
    {C : Config T ε ρ Req} (h : ReachableIf prog cond s₀ C) (p : Nat) : I p (C.conn p) := by
  induction h generalizing p with
  | refl => exact init p
  | tail hreach hs ih =>
    exact local_step own env (ReachableIf.locksExclude hreach) (fun q => ih q) hs p

/-! ## Well-formed connections -/

/-- A key holds no number that the sequences have yet to hand out. -/
def Key.Drawn (k : Key T) (seq : Nat) : Prop := ∀ n, k.serialNo = some n → n < seq

theorem Key.Drawn.mono {k : Key T} {n m : Nat} (h : k.Drawn n) (hnm : n ≤ m) : k.Drawn m :=
  fun i hi => lt_of_lt_of_le (h i hi) hnm

/-- Every row and every journal entry has a key that has been drawn. -/
structure Server.Wf (s : Server T) : Prop where
  store_drawn : ∀ t id r, s.store.get t id = some r → Key.Drawn ⟨t, id⟩ s.seq
  log_drawn : ∀ e ∈ s.log, ∀ k, e.key = some k → k.Drawn s.seq

/-- A transaction owns what it writes and what its events are about, and has locked only keys
that have been drawn. -/
structure Tx.Wf (tx : Tx T) (s : Server T) : Prop where
  writes_owned : ∀ w ∈ tx.writes, tx.Owns w.key
  notes_owned : ∀ n ∈ tx.notes, ∀ k, n.1 = some k → tx.Owns k
  locks_drawn : ∀ l ∈ tx.locks, l.1.Drawn s.seq
  start_le : tx.start ≤ s.clock

/-- A connection is well formed if the committed state and its open transaction are. -/
def Conn.Wf (c : Conn T) : Prop := c.server.Wf ∧ ∀ tx, c.tx = some tx → tx.Wf c.server

namespace Tx

theorem Owns.acquire {tx : Tx T} {k k' : Key T} {m : LockMode} (h : tx.Owns k) :
    (tx.acquire k' m).Owns k := by
  obtain ⟨n, hn, hmem⟩ := h
  exact ⟨n, hn, List.mem_cons_of_mem _ hmem⟩

theorem Owns.write {tx : Tx T} {k : Key T} {t : T} {id : Id t} {m : LockMode}
    {v : Option (Row t)} {evs : List (Ev T)} (h : tx.Owns k) : (tx.write t id m v evs).Owns k := by
  obtain ⟨n, hn, hmem⟩ := h
  exact ⟨n, hn, List.mem_cons_of_mem _ hmem⟩

/-- **A writer owns the row it has written.** -/
theorem owns_write (tx : Tx T) (t : T) (id : Id t) {m : LockMode} (v : Option (Row t))
    (evs : List (Ev T)) (hm : m.exclusive = true) : (tx.write t id m v evs).Owns ⟨t, id⟩ :=
  ⟨m, hm, List.mem_cons_self⟩

/-- A row the transaction does not own reads as committed. -/
theorem Wf.view_get {tx : Tx T} {s : Server T} (h : tx.Wf s) (σ : Store T) {t : T} {id : Id t}
    (hno : ¬tx.Owns ⟨t, id⟩) : (tx.view σ).get t id = σ.get t id := by
  refine tx.view_get_of_unwritten σ t id fun w hw heq => hno ?_
  rw [← heq]
  exact h.writes_owned w hw

/-- **Every row that a transaction sees has a drawn key.** -/
theorem Wf.view_drawn {tx : Tx T} {s : Server T} (h : tx.Wf s) (hs : s.Wf) {t : T} {id : Id t}
    {r : Row t} (hr : (tx.view s.store).get t id = some r) : Key.Drawn ⟨t, id⟩ s.seq := by
  by_cases ho : tx.Owns ⟨t, id⟩
  · obtain ⟨m, _, hmem⟩ := ho
    exact h.locks_drawn _ hmem
  · rw [h.view_get s.store ho] at hr
    exact hs.store_drawn t id r hr

theorem Wf.acquire {tx : Tx T} {s : Server T} (h : tx.Wf s) {k : Key T} {m : LockMode}
    (hk : k.Drawn s.seq) : (tx.acquire k m).Wf s where
  writes_owned := fun w hw => (h.writes_owned w hw).acquire
  notes_owned := fun n hn k' hk' => (h.notes_owned n hn k' hk').acquire
  locks_drawn := by
    intro l hl
    rcases List.mem_cons.1 hl with rfl | hl
    · exact hk
    · exact h.locks_drawn l hl
  start_le := h.start_le

theorem Wf.write {tx : Tx T} {s : Server T} (h : tx.Wf s) {t : T} {id : Id t} {m : LockMode}
    {v : Option (Row t)} {evs : List (Ev T)} (hm : m.exclusive = true)
    (hk : Key.Drawn ⟨t, id⟩ s.seq) : (tx.write t id m v evs).Wf s where
  writes_owned := by
    intro w hw
    rcases List.mem_cons.1 hw with rfl | hw
    · exact tx.owns_write t id v evs hm
    · exact (h.writes_owned w hw).write
  notes_owned := by
    intro n hn k hk'
    rcases List.mem_append.1 hn with hn | hn
    · exact (h.notes_owned n hn k hk').write
    · obtain ⟨e, _, rfl⟩ := List.mem_map.1 hn
      cases hk'
      exact tx.owns_write t id v evs hm
  locks_drawn := by
    intro l hl
    rcases List.mem_cons.1 hl with rfl | hl
    · exact hk
    · exact h.locks_drawn l hl
  start_le := h.start_le

theorem Wf.mono {tx : Tx T} {s s' : Server T} (h : tx.Wf s) (hseq : s.seq ≤ s'.seq)
    (hclock : s.clock ≤ s'.clock) : tx.Wf s' where
  writes_owned := h.writes_owned
  notes_owned := h.notes_owned
  locks_drawn := fun l hl => (h.locks_drawn l hl).mono hseq
  start_le := Nat.le_trans h.start_le hclock

end Tx

namespace Server

/-- Time passes and numbers are drawn without harm. -/
theorem Wf.advance {s : Server T} (h : s.Wf) (n d : Nat) :
    ({ s with seq := s.seq + n, clock := s.clock + d } : Server T).Wf where
  store_drawn := fun t id r hr => (h.store_drawn t id r hr).mono (Nat.le_add_right _ _)
  log_drawn := fun e he k hk => (h.log_drawn e he k hk).mono (Nat.le_add_right _ _)

/-- **A well-formed transaction commits to a well-formed state.** -/
theorem Wf.commit {s : Server T} {tx : Tx T} (h : s.Wf) (htx : tx.Wf s) (p : Nat) :
    (s.commit p tx).Wf where
  store_drawn := fun _ _ _ hr => htx.view_drawn h hr
  log_drawn := by
    intro e he k hk
    rcases List.mem_append.1 he with he | he
    · exact h.log_drawn e he k hk
    · obtain ⟨n, hn, rfl⟩ := List.mem_map.1 he
      obtain ⟨m, _, hmem⟩ := htx.notes_owned n hn k hk
      exact htx.locks_drawn _ hmem

end Server

namespace Conn

/-- **Every act keeps a connection well formed.** -/
theorem Wf.effect {p : Nat} {c c' : Conn T} (h : c.Wf) (heff : Effect p c c') : c'.Wf := by
  obtain ⟨hs, htx⟩ := h
  cases heff with
  | same => exact ⟨hs, htx⟩
  | begin =>
    refine ⟨hs, fun tx htx' => ?_⟩
    cases htx'
    exact ⟨by simp, by simp, by simp, le_rfl⟩
  | commit tx s => exact ⟨hs.commit (htx tx rfl) p, fun _ h => by cases h⟩
  | rollback => exact ⟨hs, fun _ h => by cases h⟩
  | draw =>
    exact ⟨hs.advance 1 0, fun tx h => (htx tx h).mono (Nat.le_add_right _ _) le_rfl⟩
  | note tx s e =>
    refine ⟨hs, fun tx' htx' => ?_⟩
    cases htx'
    have hw := htx tx rfl
    refine ⟨hw.writes_owned, ?_, hw.locks_drawn, hw.start_le⟩
    intro n hn k hk
    rcases List.mem_append.1 hn with hn | hn
    · exact hw.notes_owned n hn k hk
    · rw [List.mem_singleton] at hn
      subst hn
      cases hk
  | acquire tx s t id m r hr =>
    refine ⟨hs, fun tx' htx' => ?_⟩
    cases htx'
    exact (htx tx rfl).acquire ((htx tx rfl).view_drawn hs hr)
  | write tx s t id m v evs d hm hok hdrawn =>
    refine ⟨hs.advance d 0, fun tx' htx' => ?_⟩
    cases htx'
    have hw : tx.Wf { s with seq := s.seq + d } :=
      (htx tx rfl).mono (Nat.le_add_right _ _) le_rfl
    refine hw.write hm ?_
    cases hr : (tx.view s.store).get t id with
    | some r => exact ((htx tx rfl).view_drawn hs hr).mono (Nat.le_add_right _ _)
    | none =>
      intro n hn
      obtain ⟨rfl, rfl⟩ := hdrawn hr n hn
      exact Nat.lt_succ_self _

/-- **Interference keeps a connection well formed.** -/
theorem Wf.interferes {I : Nat → Conn T → Prop} {cond : Nat → Conn T → Prop} {p : Nat}
    {c c' : Conn T} (h : c.Wf) (hI : ∀ q c, I q c → c.Wf) (hi : Interferes I cond p c c') :
    c'.Wf := by
  obtain ⟨hs, htx⟩ := h
  cases hi with
  | tick d => exact ⟨hs.advance 0 d, fun tx h => (htx tx h).mono le_rfl (Nat.le_add_right _ _)⟩
  | draw d => exact ⟨hs.advance d 0, fun tx h => (htx tx h).mono (Nat.le_add_right _ _) le_rfl⟩
  | commit q tx hq hcompat hIq hcond =>
    exact ⟨hs.commit ((hI q _ hIq).2 tx rfl) q, fun tx' h => (htx tx' h).mono le_rfl le_rfl⟩

end Conn

/-- **Every connection of every reachable configuration is well formed.** -/
theorem ReachableIf.wf {prog : Req → Prog T ε ρ} {cond : Nat → Conn T → Prop} {s₀ : Server T}
    (h₀ : s₀.Wf) {C : Config T ε ρ Req} (h : ReachableIf prog cond s₀ C) (p : Nat) :
    (C.conn p).Wf :=
  local_invariant (fun _ c => c.Wf) (fun _ => ⟨h₀, fun _ h => by cases h⟩)
    (fun p a c hc _ => hc.effect (a.step_effect p c))
    (fun _ _ _ hc hi => hc.interferes (fun _ _ h => h) hi) h p

/-! ## Owned rows are stable -/

/-- **A commit of another transaction leaves an owned row alone.** -/
theorem Tx.Wf.commit_get_of_owns {tx tx' : Tx T} {s : Server T} (h' : tx'.Wf s)
    (hcompat : Compatible tx tx') {t : T} {id : Id t} (ho : tx.Owns ⟨t, id⟩) (q : Nat) :
    (s.commit q tx').store.get t id = s.store.get t id :=
  h'.view_get s.store (hcompat.not_owns ho)

/-- **A row that a connection owns stays as it is**, both as committed and as the connection
sees it. -/
theorem Interferes.get_of_owns {I : Nat → Conn T → Prop} {cond : Nat → Conn T → Prop} {p : Nat}
    {c c' : Conn T} (hI : ∀ q c, I q c → c.Wf) (hi : Interferes I cond p c c') {t : T} {id : Id t}
    (ho : c.Owns ⟨t, id⟩) :
    c'.server.store.get t id = c.server.store.get t id ∧ c'.view.get t id = c.view.get t id := by
  obtain ⟨tx, htx, hown⟩ := ho
  have hserver : c'.server.store.get t id = c.server.store.get t id := by
    cases hi with
    | tick d => rfl
    | draw d => rfl
    | commit q tx' hq hcompat hIq hcond =>
      exact ((hI q _ hIq).2 tx' rfl).commit_get_of_owns (hcompat tx htx) hown q
  refine ⟨hserver, ?_⟩
  have htx' : c'.tx = some tx := by rw [hi.tx_eq, htx]
  have hview : ∀ (d : Conn T), d.tx = some tx → d.view = tx.view d.server.store := by
    rintro ⟨_, s⟩ rfl
    rfl
  rw [hview c' htx', hview c htx]
  exact tx.view_get_congr t id hserver

/-- Interference takes no lock away. -/
theorem Interferes.owns {I : Nat → Conn T → Prop} {cond : Nat → Conn T → Prop} {p : Nat}
    {c c' : Conn T} (hi : Interferes I cond p c c') {k : Key T} (ho : c.Owns k) : c'.Owns k := by
  obtain ⟨tx, htx, hown⟩ := ho
  exact ⟨tx, by rw [hi.tx_eq, htx], hown⟩

end ReadCommitted
