import ArcAdmin.ReadCommitted.Lawful
import Mathlib.Algebra.BigOperators.Group.Finset.Piecewise
import Mathlib.Algebra.Order.BigOperators.Group.Finset

/-!
# What each program owes

A contract with duties that depend on which program commits: on its number, by which the journal
knows it, and on the request that it serves. With it, two tools for programs that begin with a
check: what the rest of a program does follows from what the whole of it does, and a count of
journal entries is bounded row by row.

* **`Contract.KeptAs`**, **`Contract.duty_of_commit`** — every commit of every run does the duty of
  its program;
* **`Prog.Yields`**, **`Prog.All.rest`** — the acts after a first part of a program;
* **`countP_le_of_fibers`** — a bound in every fibre is a bound.
-/

namespace ReadCommitted

open Schema (Id Row Ev serialNo clash Allowed)

variable {T : Type} [Schema T] {ε ρ Req α β : Type}

/-! ## Duties

The guarantee of a contract is the same for all. A duty is owed by one program: that its
transaction has checked a credential, for example, or has noted an event.
-/

namespace Contract

/-- **Every program of the world keeps the contract**, and owes `G` besides when it commits, which
may depend on its number and its request. -/
structure KeptAs (K : Contract T) (prog : Req → Prog T ε ρ) (s₀ : Server T)
    (G : Nat → Req → Conn T → Prop) (Q : Nat → Req → ρ → Conn T → Prop) : Prop where
  base : ∀ (C : Config T ε ρ Req), Reachable prog s₀ C → ∀ p, K.base p (C.conn p)
  init : K.inv s₀
  advance : ∀ (s : Server T) n d, K.inv s →
    K.inv { s with seq := s.seq + n, clock := s.clock + d }
  prog : ∀ p req, Triple ((K.judge p).owing (G p req)) p (fun c => c.tx = none) (prog req) (Q p req)

variable {K : Contract T} {prog : Req → Prog T ε ρ} {s₀ : Server T}
  {G : Nat → Req → Conn T → Prop} {Q : Nat → Req → ρ → Conn T → Prop} {C C' : Config T ε ρ Req}

/-- Duties apart, the contract is kept. -/
theorem KeptAs.kept (hK : K.KeptAs prog s₀ G Q) : K.Kept prog s₀ Q where
  base := hK.base
  init := hK.init
  advance := hK.advance
  prog p req c hc := wp_guar (fun _ hg => hg.1) (hK.prog p req c hc)

/-- **The act of another program** is interference. -/
theorem Kept.interferes_perform (hK : K.Kept prog s₀ Q) (h : Reachable prog s₀ C) {p q : Nat}
    (hpq : p ≠ q) {pr : Proc T ε ρ Req} (hq : C.procs q = some pr) {a : Act T}
    {k : a.Res → Prog T ε ρ} (hcode : pr.code = .act a k) :
    Interferes K.Commits (fun _ _ => True) p (C.conn p) ((C.perform q pr.req a k).conn p) := by
  have hconn : (C.perform q pr.req a k).conn p = ⟨C.tx p, (a.step q (C.conn q)).2.server⟩ := by
    simp [Config.conn, C.tx_perform_of_ne pr.req a k hpq]
  rw [hconn]
  rcases a.step_server q (C.conn q) with ⟨d, hserver⟩ | ⟨tx, htx, ha, hserver⟩
  · rw [hserver]
    exact .draw (C.conn p) d
  · rw [hserver]
    subst ha
    have hc : (⟨some tx, (C.conn p).server⟩ : Conn T) = C.conn q := by
      rw [← htx]
      rfl
    have hcommit : K.Commits q (⟨some tx, (C.conn p).server⟩ : Conn T) := by
      rw [hc]
      exact ⟨hK.base C h q, guar_of_commit hK h hq hcode⟩
    refine .commit (C.conn p) q tx (Ne.symm hpq) ?_ hcommit trivial
    intro tx₁ htx₁
    exact ReachableIf.locksExclude h p q hpq tx₁ tx htx₁ htx

/-- **What a step does to a running program**: it starts it, it performs its next act, or it is one
step of interference. -/
theorem Kept.step_cases (hK : K.Kept prog s₀ Q) (h : Reachable prog s₀ C)
    (hs : Step prog (fun _ _ => True) C C') {p : Nat} {pr : Proc T ε ρ Req}
    (hp : C'.procs p = some pr) :
    (pr.code = prog pr.req ∧ (C'.conn p).tx = none) ∨
      (∃ pr₀ a k, C.procs p = some pr₀ ∧ pr₀.code = .act a k ∧ pr.req = pr₀.req ∧
        pr.code = k (a.step p (C.conn p)).1 ∧ C'.conn p = (a.step p (C.conn p)).2) ∨
      (C.procs p = some pr ∧ (K.judge p).Rely (C.conn p) (C'.conn p)) := by
  have h' : Reachable prog s₀ C' := h.tail hs
  have hinv : K.inv C.server := (sound hK h).1
  have hinv' : K.inv C'.server := (sound hK h').1
  -- the connection of a program that did not act
  have hother : Interferes K.Commits (fun _ _ => True) p (C.conn p) (C'.conn p) →
      (K.judge p).Rely (C.conn p) (C'.conn p) := fun hi =>
    .single ⟨hK.base C h p, hinv, hK.base C' h' p, hinv', hi⟩
  cases hs with
  | spawn req =>
    by_cases hpn : p = C.next
    · subst hpn
      have hpr : pr = ⟨req, none, prog req⟩ := by simpa [Config.setProc] using hp.symm
      subst hpr
      exact .inl ⟨rfl, by simp [Config.conn, Config.tx, Config.setProc]⟩
    · have hsame : C.procs p = some pr := by simpa [Config.setProc, hpn] using hp
      have hconn : ({ C.setProc C.next (some ⟨req, none, prog req⟩) with
          next := C.next + 1 } : Config T ε ρ Req).conn p = C.conn p := by
        simp [Config.conn, Config.tx, Config.setProc, hpn]
      rw [hconn]
      exact .inr (.inr ⟨hsame, .refl⟩)
  | drop q =>
    by_cases hpq : p = q
    · subst hpq
      simp [Config.setProc] at hp
    · have hsame : C.procs p = some pr := by simpa [Config.setProc, hpq] using hp
      have hconn : (C.setProc q none).conn p = C.conn p := by
        simp [Config.conn, C.tx_setProc_of_ne none hpq]
      rw [hconn]
      exact .inr (.inr ⟨hsame, .refl⟩)
  | tick d => exact .inr (.inr ⟨hp, hother (.tick _ d)⟩)
  | act q pr₀ a k hq hcode hen hcond =>
    by_cases hpq : p = q
    · subst hpq
      have hpr : pr = ⟨pr₀.req, (a.step p (C.conn p)).2.tx, k (a.step p (C.conn p)).1⟩ := by
        simpa [Config.perform, Config.setProc] using hp.symm
      subst hpr
      exact .inr (.inl ⟨pr₀, a, k, hq, hcode, rfl, rfl, C.conn_perform_self p pr₀.req a k⟩)
    · have hsame : C.procs p = some pr := by
        simpa [Config.perform, Config.setProc, hpq] using hp
      exact .inr (.inr ⟨hsame, hother (hK.interferes_perform h hpq hq hcode)⟩)

/-- **Every program is still on the way that its duties describe.** -/
theorem KeptAs.sound (hK : K.KeptAs prog s₀ G Q) (h : Reachable prog s₀ C) {p : Nat}
    {pr : Proc T ε ρ Req} (hp : C.procs p = some pr) :
    wp ((K.judge p).owing (G p pr.req)) p pr.code (Q p pr.req) (C.conn p) := by
  induction h generalizing pr with
  | refl => cases hp
  | @tail C C' hreach hs ih =>
    rcases hK.kept.step_cases hreach hs hp with ⟨hcode, htx⟩ | ⟨pr₀, a, k, hp₀, hcode₀, hreq,
      hcode, hconn⟩ | ⟨hp₀, hrely⟩
    · rw [hcode]
      exact hK.prog p pr.req _ htx
    · have hwp := ih hp₀
      rw [hcode₀] at hwp
      rw [hreq, hcode, hconn]
      exact (wp_act.1 hwp _ .refl ⟨hK.base C hreach p, (Contract.sound hK.kept hreach).1⟩).2
    · exact wp_rely (ih hp₀) hrely

/-- **Every commit of every run does the duty of its program.** -/
theorem KeptAs.duty_of_commit (hK : K.KeptAs prog s₀ G Q) (h : Reachable prog s₀ C) {p : Nat}
    {pr : Proc T ε ρ Req} {k : Act.Res (T := T) .commit → Prog T ε ρ} (hp : C.procs p = some pr)
    (hcode : pr.code = .act .commit k) : G p pr.req (C.conn p) := by
  have hwp := hK.sound h hp
  rw [hcode] at hwp
  exact ((wp_act.1 hwp _ .refl ⟨hK.base C h p, (Contract.sound hK.kept h).1⟩).1 rfl).2

end Contract

/-- **A step that is the commit of `p`**: the program of `p` stands before a COMMIT, its transaction is
what the step lays down, and so what is stored afterwards is what that program has been seeing.  The
entries that the step adds to the journal bear the number of `p`. -/
structure CommitOf (C C' : Config T ε ρ Req) (p : Nat) (pr : Proc T ε ρ Req) : Prop where
  proc : C.procs p = some pr
  code : ∃ k : Act.Res (T := T) .commit → Prog T ε ρ, pr.code = .act .commit k
  laid : ∃ tx, C.conn p = ⟨some tx, C.server⟩ ∧ C'.server = C.server.commit p tx
  stored : C'.server.store = (C.conn p).view

/-- **Whatever changes is committed**: a step that changes a row is the commit of a program. -/
theorem Step.commit_of_changed {prog : Req → Prog T ε ρ} {cond : Nat → Conn T → Prop}
    {C C' : Config T ε ρ Req} (hs : Step prog cond C C') {t : T} {id : Id t}
    (h : C'.server.store.get t id ≠ C.server.store.get t id) : ∃ p pr, CommitOf C C' p pr := by
  rcases hs.commits with ⟨hstore, _⟩ | ⟨p, pr, k, tx, hp, hcode, hconn, hserver, _⟩
  · rw [hstore] at h
    exact absurd rfl h
  · refine ⟨p, pr, hp, ⟨k, hcode⟩, ⟨tx, hconn, hserver⟩, ?_⟩
    rw [hserver, hconn]
    rfl

/-! ## The rest of a program

A check at the beginning of a request decides whether the rest of it runs. What the rest may do is
a part of what the whole may do, so the footprint of the whole is enough.
-/

/-- Sequencing is associative. -/
theorem Prog.bind_assoc {γ : Type} (m : Prog T ε α) (f : α → Prog T ε β) (g : β → Prog T ε γ) :
    (m >>= f) >>= g = m >>= fun a => f a >>= g := by
  induction m with
  | ret a => rfl
  | fail e => rfl
  | act a k ih =>
    simp only [act_bind, Prog.act.injEq, heq_eq_eq, true_and]
    exact funext ih

/-- The program may return `a`. -/
inductive Prog.Yields : Prog T ε α → α → Prop where
  | ret {a : α} : Prog.Yields (.ret a) a
  | act {b : Act T} {k : b.Res → Prog T ε α} {a : α} (r : b.Res) (h : Prog.Yields (k r) a) :
    Prog.Yields (.act b k) a

namespace Prog.All

variable {ok : Act T → Prop} {m : Prog T ε α} {f : α → Prog T ε β}

/-- **The acts of the whole include those that follow** a first part, whatever that returns. -/
theorem rest (h : (m >>= f).All ok) {a : α} (ha : m.Yields a) : (f a).All ok := by
  induction ha with
  | ret => exact h
  | act r _ ih =>
    cases h with
    | act hb hk => exact ih (hk r)

end Prog.All

/-- A program returns what it may return. -/
theorem Triple.yields {J : Judge T} {p : Nat} {P : Conn T → Prop} {m : Prog T ε α}
    {Q : α → Conn T → Prop} (h : Triple J p P m Q) :
    Triple J p P m fun a c => m.Yields a ∧ Q a c := by
  have hwp : ∀ (m' : Prog T ε α), (∀ a, m'.Yields a → m.Yields a) → ∀ c, wp J p m' Q c →
      wp J p m' (fun a c => m.Yields a ∧ Q a c) c := by
    intro m'
    induction m' with
    | ret a => exact fun hy c hc => wp_ret.2 fun d hd hb => ⟨hy a .ret, wp_ret.1 hc d hd hb⟩
    | fail e => exact fun _ c _ => Triple.fail (P := fun _ => True) c trivial
    | act b k ih =>
      intro hy c hc
      refine wp_act.2 fun d hd hb => ⟨(wp_act.1 hc d hd hb).1, ?_⟩
      exact ih _ (fun a ha => hy a (.act _ ha)) _ (wp_act.1 hc d hd hb).2
  exact fun c hc => hwp m (fun _ ha => ha) c (h c hc)

/-! ## Duties that what is committed discharges

Where the duty is about the journal, it is discharged for good once an earlier transaction of the
program has committed its entry.
-/

/-- An act only adds to the journal. -/
theorem Act.log_subset (p : Nat) (a : Act T) (c : Conn T) :
    c.server.log ⊆ (a.step p c).2.server.log := by
  rcases a.step_server p c with ⟨d, hserver⟩ | ⟨tx, _, _, hserver⟩
  · rw [hserver]
    exact List.Subset.refl _
  · rw [hserver, Server.commit_log]
    exact List.subset_append_left _ _

/-- A fact about the journal that lasts. -/
def Lasts (F : List (Entry T) → Prop) : Prop := ∀ log log', log ⊆ log' → F log → F log'

theorem Lasts.const (φ : Prop) : Lasts fun _ : List (Entry T) => φ := fun _ _ _ h => h

theorem Lasts.and {F F' : List (Entry T) → Prop} (h : Lasts F) (h' : Lasts F') :
    Lasts fun log => F log ∧ F' log :=
  fun log log' hsub hF => ⟨h log log' hsub hF.1, h' log log' hsub hF.2⟩

theorem Lasts.stable {F : List (Entry T) → Prop} (h : Lasts F) {K : Contract T} {p : Nat} :
    (K.judge p).Stable fun c => F c.server.log :=
  fun _ _ hr hc => h _ _ hr.2.2.2.2.log_subset hc

/-- **A fact about the journal that lasts** may be assumed throughout, and discharges what rests on
it. -/
theorem Triple.lasting {K : Contract T} {p : Nat} {P : Conn T → Prop} {m : Prog T ε α}
    {Q : α → Conn T → Prop} {F : List (Entry T) → Prop} {G G' : Conn T → Prop} (hF : Lasts F)
    (hG : ∀ c, F c.server.log → G c → G' c) (h : Triple ((K.judge p).owing G) p P m Q) :
    Triple ((K.judge p).owing G') p (fun c => F c.server.log ∧ P c) m
      fun a c => F c.server.log ∧ Q a c := by
  have hrely : ∀ c d, (K.judge p).Rely c d → F c.server.log → F d.server.log :=
    fun c d hr hc => (hF.stable (K := K) (p := p)).rely hr hc
  have hwp : ∀ c, F c.server.log → wp ((K.judge p).owing G) p m Q c →
      wp ((K.judge p).owing G') p m (fun a c => F c.server.log ∧ Q a c) c := by
    clear h
    induction m with
    | ret a => exact fun c hc hq => wp_ret.2 fun d hd hb => ⟨hrely c d hd hc, wp_ret.1 hq d hd hb⟩
    | fail e => exact fun c _ _ => Triple.fail (P := fun _ => True) c trivial
    | act a k ih =>
      intro c hc hq
      refine wp_act.2 fun d hd hb => ?_
      have hlog : F d.server.log := hrely c d hd hc
      obtain ⟨hguar, hnext⟩ := wp_act.1 hq d hd hb
      exact ⟨fun ha => ⟨(hguar ha).1, hG d hlog (hguar ha).2⟩,
        ih _ _ (hF _ _ (Act.log_subset p a d) hlog) hnext⟩
  exact fun c hc => hwp c hc.1 (h c hc.2)

/-- What is carried along may discharge a duty. -/
theorem Carried.owing {J : Judge T} {φ : Change T} {N : Ev T → Prop} {R : Conn T → Prop}
    {G : Conn T → Prop} (h : Carried J φ R N) (hG : ∀ c, R c → G c) :
    Carried (J.owing G) φ R N where
  stable := h.stable
  frame := h.frame
  clean := h.clean
  note := h.note
  guar c hb hc := ⟨h.guar c hb hc, hG c hc⟩

/-! ## Tables that a transaction leaves alone

A duty about changes of a table is void in a transaction that does not change it.
-/

/-- The transaction has changed no row of these tables. -/
def Conn.LeavesAlone (c : Conn T) (ts : T → Prop) : Prop :=
  ∀ t, ts t → c.RowRel t fun _ old new => new = old

/-- **A transaction within `φ` spares the tables that `φ` does not mention.** -/
theorem Carried.leaving {K : Contract T} (hK : K.WellFormed) {p : Nat} {φ : Change T}
    {N : Ev T → Prop} {R : Conn T → Prop} {ts : T → Prop} (h : Carried (K.judge p) φ R N)
    (hts : ∀ t, ts t → Frozen φ t) :
    Carried (K.judge p) φ (fun c => R c ∧ c.LeavesAlone ts) N where
  stable := by
    refine h.stable.and (Judge.Stable.forall fun t => fun c c' hr hc ht => ?_)
    have hrel : (K.judge p).Stable fun c => c.RowRel t fun _ old new => new = old :=
      Contract.stable_rowRel hK fun _ _ => rfl
    exact hrel c c' hr (hc ht)
  frame c c' hf hc := by
    refine ⟨h.frame c c' hf hc.1, fun t ht => RowRel.framed ?_ (hc.2 t ht) hf⟩
    exact fun id old v v' evs hφ _ _ => absurd hφ (hts t ht id v v' evs)
  clean c hc := ⟨h.clean c hc, fun t _ => RowRel.of_view_eq (fun _ _ => rfl) fun id => by
    rw [hc.view_eq]⟩
  note c e he hc := ⟨h.note c e he hc.1, fun t ht => RowRel.noted (hc.2 t ht) e⟩
  guar c hb hc := h.guar c hb hc.1

/-! ## Events that a statement leaves

A statement that has returned a row has left the events of its change, and they are in the journal
after the commit.
-/

/-- The transaction has noted the event about the row at `k`. -/
def Conn.Notes (c : Conn T) (k : Key T) (e : Ev T) : Prop := (some k, e) ∈ c.notes

theorem Conn.Notes.stable {J : Judge T} (hJ : J.Private) (k : Key T) (e : Ev T) :
    J.Stable fun c => c.Notes k e := by
  intro c c' hr hc
  unfold Conn.Notes Conn.notes at hc ⊢
  rw [hJ c c' hr]
  exact hc

theorem Conn.Notes.framed {φ : Change T} {c c' : Conn T} {k : Key T} {e : Ev T}
    (h : c.Notes k e) (hf : Framed φ c c') : c'.Notes k e := by
  unfold Conn.Notes at h ⊢
  rcases hf.tx with ⟨hnone, hnone'⟩ | ⟨tx, tx', htx, htx', _, _, ns, hns, _⟩
  · simpa only [Conn.notes, hnone, hnone'] using h
  · simp only [Conn.notes, htx, htx', hns] at h ⊢
    exact List.mem_append_left _ h

/-- What statements note, they note about changes. -/
theorem Conn.Notes.of_framed {φ : Change T} {c c' : Conn T} {t : T} {id : Id t} {e : Ev T}
    (h : c'.Notes ⟨t, id⟩ e) (hf : Framed φ c c') :
    c.Notes ⟨t, id⟩ e ∨
      ∃ (old new : Option (Row t)) (evs : List (Ev T)), φ t id old new evs ∧ e ∈ evs := by
  unfold Conn.Notes at h ⊢
  rcases hf.tx with ⟨_, hnone'⟩ | ⟨tx, tx', htx, htx', _, _, ns, hns, hall⟩
  · simp only [Conn.notes, hnone'] at h
    cases h
  · simp only [Conn.notes, htx', hns] at h
    rcases List.mem_append.1 h with hold | hnew
    · refine .inl ?_
      simp only [Conn.notes, htx]
      exact hold
    · obtain ⟨k, hk, old, new, evs, hchange, hmem⟩ := hall _ hnew
      have hkey : k = ⟨t, id⟩ := (Option.some.inj hk).symm
      subst hkey
      exact .inr ⟨old, new, evs, hchange, hmem⟩

/-- An event of the transaction's own is about no row. -/
@[simp] theorem Conn.notes_noted {c : Conn T} {k : Key T} {e e' : Ev T} :
    (c.noted e').Notes k e ↔ c.Notes k e := by
  unfold Conn.Notes
  obtain ⟨otx, s⟩ := c
  cases otx with
  | none => exact Iff.rfl
  | some tx => simp [Conn.noted]

/-- The transaction has left the events of a row that satisfies the condition of `u`. -/
def Update.Noted {t : T} (u : Update T t) (c : Conn T) : Prop :=
  ∃ s id r, u.cond s id r = true ∧ ∀ e ∈ u.evs s r, c.Notes ⟨t, id⟩ e

theorem Update.noted_stable {J : Judge T} (hJ : J.Private) {t : T} (u : Update T t) :
    J.Stable u.Noted := by
  intro c c' hr hc
  obtain ⟨s, id, r, hcond, hnotes⟩ := hc
  exact ⟨s, id, r, hcond, fun e he => Conn.Notes.stable hJ _ e c c' hr (hnotes e he)⟩

theorem Update.Noted.framed {t : T} {u : Update T t} {φ : Change T} {c c' : Conn T}
    (h : u.Noted c) (hf : Framed φ c c') : u.Noted c' := by
  obtain ⟨s, id, r, hcond, hnotes⟩ := h
  exact ⟨s, id, r, hcond, fun e he => (hnotes e he).framed hf⟩

/-- **An act that returns a row** has changed it, and left its events. -/
theorem Update.noted_of_step {t : T} {u : Update T t} {s : Snapshot T} {id : Id t} {p : Nat}
    {c : Conn T} (h : ((Act.update t id (u.cond s id) (u.set s) (u.evs s)
      (u.ok s id)).step p c).1 ≠ none) :
    u.Noted ((Act.update t id (u.cond s id) (u.set s) (u.evs s) (u.ok s id)).step p c).2 := by
  obtain ⟨otx, srv⟩ := c
  cases otx with
  | none => exact absurd rfl h
  | some tx =>
    cases hr : (tx.view srv.store).get t id with
    | none => exact absurd (by simp only [Act.step, Conn.view_some, hr]; rfl) h
    | some r =>
      by_cases hcond : u.cond s id r = true
      · refine ⟨s, id, r, hcond, fun e he => ?_⟩
        have hmem : (some (⟨t, id⟩ : Key T), e) ∈
            (u.evs s r).map fun e => (some (⟨t, id⟩ : Key T), e) :=
          List.mem_map.2 ⟨e, he, rfl⟩
        simp only [Conn.Notes, Act.step, Conn.view_some, hr, hcond, if_true,
          Conn.notes_some, Tx.notes_write]
        exact List.mem_append_right _ hmem
      · exact absurd (by simp only [Act.step, Conn.view_some, hr, hcond]; rfl) h

section Noting

variable {J : Judge T} {p : Nat} {P : Conn T → Prop} {t : T} {u : Update T t} {φ : Change T}

/-- The rows that a statement visits. `done` tells that one has been returned before. -/
theorem Triple.visitNoting (hJ : J.Private) (hst : J.Stable P) (hP : FrameClosed φ P)
    (hw : ∀ s id, (Act.update t id (u.cond s id) (u.set s) (u.evs s) (u.ok s id)).Within φ)
    (s : Snapshot T) (is : List (Id t)) (done : Prop) :
    Triple J p (fun c => P c ∧ (done → u.Noted c))
      (ReadCommitted.visit is fun id => (Prog.perform
        (.update t id (u.cond s id) (u.set s) (u.evs s) (u.ok s id)) : Prog T ε _))
      fun rows c => P c ∧ (done ∨ rows ≠ [] → u.Noted c) := by
  have hpre : ∀ q : Prop, J.Stable fun c => P c ∧ (q → u.Noted c) :=
    fun q => hst.and fun c c' hr hc h => u.noted_stable hJ c c' hr (hc h)
  induction is generalizing done with
  | nil => exact Triple.ret (hpre done) fun c _ hc => ⟨hc.1, fun h => hc.2 (by simpa using h)⟩
  | cons id is ih =>
    have hstep : Triple J p (fun c => P c ∧ (done → u.Noted c)) (Prog.perform
        (.update t id (u.cond s id) (u.set s) (u.evs s) (u.ok s id)) : Prog T ε _)
        fun (b : Option (Row t)) c => P c ∧ (done ∨ b ≠ none → u.Noted c) := by
      refine Triple.perform (a := .update t id (u.cond s id) (u.set s) (u.evs s) (u.ok s id))
        (Q := fun (b : Option (Row t)) c => P c ∧ (done ∨ b ≠ none → u.Noted c)) (hpre done)
        (fun b => hpre _) fun c _ hc => ⟨by rintro ⟨⟩, ?_⟩
      have hf := (hw s id).framed p c
      refine ⟨hP c _ hf hc.1, ?_⟩
      rintro (hdone | hsome)
      · exact (hc.2 hdone).framed hf
      · exact Update.noted_of_step hsome
    refine hstep.bind fun b => (ih (done ∨ b ≠ none)).bind fun bs => ?_
    refine Triple.ret (hpre _) fun c _ hc => ⟨hc.1, fun h => hc.2 ?_⟩
    cases b with
    | none => exact h.imp .inl fun hbs => by simpa using hbs
    | some row => exact .inl (.inr (Option.some_ne_none row))

/-- **`UPDATE` and its events**: if the statement returns a row, it has left the events of one that
satisfies the condition. -/
theorem Triple.updateNoting (hJ : J.Private) (hst : J.Stable P) (hP : FrameClosed φ P)
    (hw : ∀ s id, (Act.update t id (u.cond s id) (u.set s) (u.evs s) (u.ok s id)).Within φ) :
    Triple J p P (u.exec : Prog T ε _) fun rows c => P c ∧ (rows ≠ [] → u.Noted c) := by
  have hquery : Triple J p P (ReadCommitted.query : Prog T ε (Snapshot T)) fun _ => P :=
    Triple.within hst hP (Prog.All.all_perform (a := .query) trivial)
  refine hquery.bind fun s => ?_
  refine ((Triple.visitNoting hJ hst hP hw s _ False).pre fun c hc => ⟨hc, False.elim⟩).post
    fun rows c hc => ?_
  exact ⟨hc.1, fun h => hc.2 (.inr h)⟩

end Noting

/-- **`COMMIT` puts the notes into the journal.** -/
theorem Triple.commitNoted {K : Contract T} {p : Nat} {P : Conn T → Prop} {k : Key T} {e : Ev T}
    {G : Conn T → Prop} (hst : (K.judge p).Stable P)
    (h : ∀ c, (K.judge p).base c → P c → ((K.judge p).owing G).guar c) :
    Triple ((K.judge p).owing G) p (fun c => P c ∧ c.Notes k e)
      (ReadCommitted.commitTx : Prog T ε Unit)
      fun _ c => Logged c.server.log p k e ∧ c.tx = none := by
  refine Triple.commitLogged (hst.and (Conn.Notes.stable Contract.private_judge k e))
    ((Contract.stable_logged p k e).and (Contract.stable_tx fun otx => otx = none))
    (fun c hb hc => h c hb hc.1) (fun tx s _ hc => ⟨?_, rfl⟩) fun c hc => ?_
  · have hmem : (some k, e) ∈ tx.notes := hc.2
    unfold Logged
    rw [Server.commit_log]
    exact List.mem_append_right _ (List.mem_map.2 ⟨_, hmem, rfl⟩)
  · obtain ⟨otx, s⟩ := c
    cases otx with
    | none => exact absurd hc.2 (by simp [Conn.Notes])
    | some tx => rfl

/-! ## Counting row by row

A bound for each row is a bound for all of them, if the rows are counted apart.
-/

/-- A list is counted fibre by fibre. -/
theorem countP_eq_sum_fibers [DecidableEq β] (f : α → β) (P : α → Bool) (l : List α)
    {S : Finset β} (hS : ∀ a ∈ l, f a ∈ S) :
    l.countP P = ∑ b ∈ S, (l.filter fun a => f a = b).countP P := by
  induction l with
  | nil => simp
  | cons a l ih =>
    have hfiber : ∀ b, ((a :: l).filter fun x => f x = b).countP P =
        (l.filter fun x => f x = b).countP P + if f a = b then (if P a then 1 else 0) else 0 := by
      intro b
      by_cases hb : f a = b <;> simp [hb, List.countP_cons]
    rw [List.countP_cons, ih fun x hx => hS x (List.mem_cons_of_mem a hx)]
    simp only [hfiber, Finset.sum_add_distrib, Finset.sum_ite_eq, hS a List.mem_cons_self, if_true]

/-- **A bound in every fibre is a bound.** -/
theorem countP_le_of_fibers [DecidableEq β] (f : α → β) (P Q : α → Bool) (l : List α)
    (h : ∀ b, (l.filter fun a => f a = b).countP P ≤ (l.filter fun a => f a = b).countP Q) :
    l.countP P ≤ l.countP Q := by
  have hS : ∀ a ∈ l, f a ∈ (l.map f).toFinset := by
    intro a ha
    simpa using ⟨a, ha, rfl⟩
  rw [countP_eq_sum_fibers f P l hS, countP_eq_sum_fibers f Q l hS]
  exact Finset.sum_le_sum fun b _ => h b

end ReadCommitted
