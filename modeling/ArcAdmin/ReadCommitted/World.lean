import Mathlib.Logic.Relation
import ArcAdmin.ReadCommitted.Prog

/-!
# The world: all connections and their interleavings

A `Config` is the committed state together with every running program. A step lets one connection
perform its next act, provided the row locks of the others allow it, starts a new program, lets
time pass, or drops a connection (its program failed, its client went away, or the server chose it
to break a deadlock).

* **`Act.step_effect`** — the eight things an act can do to a connection;
* **`Reachable`** — the configurations of all interleavings of all programs;
* **`local_invariant`** — the proof rule for facts about one connection: its own acts keep them,
  and so do the commits of the others;
* **`Conn.Wf`** — writes and events happen under a row lock, and drawn numbers are not drawn again.
-/

namespace ReadCommitted

open Schema (Id Row Ev serialNo clash Allowed)

variable {T : Type} [Schema T] {ε ρ Req : Type}

/-! ## What an act can do

Twelve acts have eight effects: the results matter to the acting program only. Every invariant
below is proved over the effects, so a new act needs one more case here and none elsewhere.
-/

/-- A condition on the change of one row and the events that it leaves. -/
abbrev Change (T : Type) [Schema T] :=
  (t : T) → Id t → Option (Row t) → Option (Row t) → List (Ev T) → Prop

/-- Every change that the act may make satisfies `φ`. -/
def Act.Respects (φ : Change T) : Act T → Prop
  | .update t id recheck set evs _ =>
    ∀ r, recheck r = true → φ t id (some r) (some (set r)) (evs r)
  | .delete t id _ recheck _ => ∀ r, recheck r = true → φ t id (some r) none []
  | .insert t key row evs _ _ => ∀ n, φ t (key n) none (some (row n)) (evs n)
  | .upsert t id row set _ _ _ =>
    φ t id none (some row) [] ∧ ∀ r r', set r = some r' → φ t id (some r) (some r') []
  | _ => True

/-- **The effect of an act**, without its result: everything that an act of connection `p` can
change. -/
inductive Effect (p : Nat) : Conn T → Conn T → Prop where
  | same (c : Conn T) : Effect p c c
  | begin (c : Conn T) : Effect p c ⟨some ⟨c.server.clock, [], [], []⟩, c.server⟩
  | commit (tx : Tx T) (s : Server T) : Effect p ⟨some tx, s⟩ ⟨none, s.commit p tx⟩
  | rollback (c : Conn T) : Effect p c ⟨none, c.server⟩
  | draw (c : Conn T) : Effect p c ⟨c.tx, { c.server with seq := c.server.seq + 1 }⟩
  | note (tx : Tx T) (s : Server T) (e : Ev T) :
      Effect p ⟨some tx, s⟩ ⟨some { tx with notes := tx.notes ++ [(none, e)] }, s⟩
  | acquire (tx : Tx T) (s : Server T) (t : T) (id : Id t) (m : LockMode) (r : Row t)
      (hr : (tx.view s.store).get t id = some r) :
      Effect p ⟨some tx, s⟩ ⟨some (tx.acquire ⟨t, id⟩ m), s⟩
  | write (tx : Tx T) (s : Server T) (t : T) (id : Id t) (m : LockMode) (v : Option (Row t))
      (evs : List (Ev T)) (d : Nat) (hm : m.exclusive = true)
      (hok : Allowed t id ((tx.view s.store).get t id) v evs)
      (hdrawn : (tx.view s.store).get t id = none →
        ∀ n, serialNo t id = some n → n = s.seq ∧ d = 1) :
      Effect p ⟨some tx, s⟩ ⟨some (tx.write t id m v evs), { s with seq := s.seq + d }⟩

/-- **Every act has one of these effects.** -/
theorem Act.step_effect (p : Nat) (a : Act T) (c : Conn T) :
    Effect p c (a.step p c).2 := by
  obtain ⟨otx, s⟩ := c
  cases a with
  | begin => exact .begin _
  | commit =>
    cases otx with
    | none => exact .same _
    | some tx => exact .commit tx s
  | rollback => exact .rollback _
  | query => exact .same _
  | poolQuery => exact .same _
  | clock => exact .same _
  | fresh => exact .draw _
  | note e =>
    cases otx with
    | none => exact .same _
    | some tx => exact .note tx s e
  -- statements outside of a transaction, or on a missing row, do nothing
  | lock t id m recheck =>
    cases otx with
    | none => exact .same _
    | some tx =>
      cases hr : (tx.view s.store).get t id with
      | none => simpa [Act.step, hr] using Effect.same _
      | some r => simpa [Act.step, hr] using Effect.acquire tx s t id m r hr
  | update t id recheck set evs ok =>
    cases otx with
    | none => exact .same _
    | some tx =>
      cases hr : (tx.view s.store).get t id with
      | none => simpa [Act.step, hr] using Effect.same _
      | some r =>
        by_cases hc : recheck r = true
        · have hw : Effect p ⟨some tx, s⟩ _ := .write tx s t id .noKeyUpdate (some (set r)) (evs r) 0 rfl
            (by rw [hr]; exact ok r hc) (by simp [hr])
          simpa [Act.step, hr, hc] using hw
        · simpa [Act.step, hr, hc] using Effect.acquire tx s t id .noKeyUpdate r hr
  | delete t id seen recheck ok =>
    cases otx with
    | none => exact .same _
    | some tx =>
      cases hsel : ((tx.view s.store).get t id).filter seen with
      | none => simpa [Act.step, hsel] using Effect.same _
      | some r =>
        have hr : (tx.view s.store).get t id = some r := (Option.filter_eq_some_iff.1 hsel).1
        by_cases hc : recheck r = true
        · have hw : Effect p ⟨some tx, s⟩ _ := .write tx s t id .update none [] 0 rfl
            (by rw [hr]; exact ok r hc) (by simp [hr])
          simpa [Act.step, hsel, hc] using hw
        · simpa [Act.step, hsel, hc] using Effect.acquire tx s t id .update r hr
  -- an insertion draws its number in any case
  | insert t key row evs hkey ok =>
    cases otx with
    | none => exact .draw _
    | some tx =>
      by_cases hb : (tx.view s.store).blocks t (key s.seq) (row s.seq) = true
      · simpa [Act.step, hb] using Effect.draw _
      · have hnone : (tx.view s.store).get t (key s.seq) = none := by
          simp only [Store.blocks, Bool.or_eq_true, not_or] at hb
          simpa using hb.1
        have hw : Effect p ⟨some tx, s⟩ _ := .write tx s t (key s.seq) .update (some (row s.seq))
          (evs s.seq) 1 rfl (by rw [hnone]; exact ok s.seq)
          (fun _ n hn => ⟨hkey s.seq n hn, rfl⟩)
        simpa [Act.step, hb] using hw
  | upsert t id row set hkey okInsert okUpdate =>
    cases otx with
    | none => exact .same _
    | some tx =>
      cases hr : (tx.view s.store).get t id with
      | none =>
        have hw : Effect p ⟨some tx, s⟩ _ := .write tx s t id .update (some row) [] 0 rfl
          (by rw [hr]; exact okInsert) (by simp [hkey])
        simpa [Act.step, hr] using hw
      | some r =>
        cases hset : set r with
        | none => simpa [Act.step, hr, hset] using Effect.acquire tx s t id .noKeyUpdate r hr
        | some r' =>
          have hw : Effect p ⟨some tx, s⟩ _ := .write tx s t id .noKeyUpdate (some r') [] 0 rfl
            (by rw [hr]; exact okUpdate r r' hset) (by simp [hr])
          simpa [Act.step, hr, hset] using hw

/-- The row lock that an act waits for. -/
def Act.wants (c : Conn T) : Act T → Option (Key T × LockMode)
  | .lock t id m _ => some (⟨t, id⟩, m)
  | .update t id _ _ _ _ => some (⟨t, id⟩, .noKeyUpdate)
  | .delete t id seen _ _ => ((c.view.get t id).filter seen).map fun _ => (⟨t, id⟩, .update)
  | .insert t key _ _ _ _ => some (⟨t, key c.server.seq⟩, .update)
  | .upsert t id _ _ _ _ _ =>
    some (⟨t, id⟩, if (c.view.get t id).isSome then .noKeyUpdate else .update)
  | _ => none

/-- **An act takes no other lock than the one it waits for.** -/
theorem Act.step_locks (p : Nat) (a : Act T) (c : Conn T) {tx' : Tx T}
    (htx' : (a.step p c).2.tx = some tx') {l : Key T × LockMode} (hl : l ∈ tx'.locks) :
    (∃ tx, c.tx = some tx ∧ l ∈ tx.locks) ∨ a.wants c = some l := by
  obtain ⟨otx, s⟩ := c
  cases otx with
  | none =>
    cases a <;> simp [Act.step] at htx'
    subst htx'
    cases hl
  | some tx =>
    -- every act either keeps the lock list or puts the wanted lock in front of it
    have hold : tx' = tx ∨ (∃ ns, tx' = { tx with notes := ns }) →
        (∃ tx₁, some tx = some tx₁ ∧ l ∈ tx₁.locks) ∨ a.wants ⟨some tx, s⟩ = some l := by
      rintro (rfl | ⟨ns, rfl⟩)
      · exact .inl ⟨_, rfl, hl⟩
      · exact .inl ⟨_, rfl, hl⟩
    have hcons : ∀ w, a.wants ⟨some tx, s⟩ = some w → tx'.locks = w :: tx.locks →
        (∃ tx₁, some tx = some tx₁ ∧ l ∈ tx₁.locks) ∨ a.wants ⟨some tx, s⟩ = some l := by
      intro w hw hlocks
      rw [hlocks] at hl
      rcases List.mem_cons.1 hl with rfl | hmem
      · exact .inr hw
      · exact .inl ⟨_, rfl, hmem⟩
    cases a with
    | begin =>
      simp only [Act.step, Option.some.injEq] at htx'
      subst htx'
      cases hl
    | commit => simp [Act.step] at htx'
    | rollback => simp [Act.step] at htx'
    | query | poolQuery | clock | fresh =>
      simp only [Act.step, Option.some.injEq] at htx'
      exact hold (.inl htx'.symm)
    | note e =>
      simp only [Act.step, Option.some.injEq] at htx'
      exact hold (.inr ⟨_, htx'.symm⟩)
    | lock t id m recheck =>
      cases hr : (tx.view s.store).get t id with
      | none =>
        simp [Act.step, hr] at htx'
        exact hold (.inl htx'.symm)
      | some r =>
        simp [Act.step, hr] at htx'
        exact hcons _ rfl (by rw [← htx']; rfl)
    | update t id recheck set evs ok =>
      cases hr : (tx.view s.store).get t id with
      | none =>
        simp [Act.step, hr] at htx'
        exact hold (.inl htx'.symm)
      | some r =>
        by_cases hcond : recheck r = true <;> simp [Act.step, hr, hcond] at htx' <;>
          exact hcons _ rfl (by rw [← htx']; rfl)
    | delete t id seen recheck ok =>
      cases hsel : ((tx.view s.store).get t id).filter seen with
      | none =>
        simp [Act.step, hsel] at htx'
        exact hold (.inl htx'.symm)
      | some r =>
        have hwants : (Act.delete t id seen recheck ok).wants ⟨some tx, s⟩ =
            some (⟨t, id⟩, .update) := by simp [Act.wants, hsel]
        by_cases hcond : recheck r = true <;> simp [Act.step, hsel, hcond] at htx' <;>
          exact hcons _ hwants (by rw [← htx']; rfl)
    | insert t key row evs hkey ok =>
      by_cases hb : (tx.view s.store).blocks t (key s.seq) (row s.seq) = true
      · simp [Act.step, hb] at htx'
        exact hold (.inl htx'.symm)
      · simp [Act.step, hb] at htx'
        exact hcons _ rfl (by rw [← htx']; rfl)
    | upsert t id row set hkey okInsert okUpdate =>
      cases hr : (tx.view s.store).get t id with
      | none =>
        simp [Act.step, hr] at htx'
        exact hcons (⟨t, id⟩, .update) (by simp [Act.wants, hr]) (by rw [← htx']; rfl)
      | some r =>
        have hwants : (Act.upsert t id row set hkey okInsert okUpdate).wants ⟨some tx, s⟩ =
            some (⟨t, id⟩, .noKeyUpdate) := by simp [Act.wants, hr]
        cases hset : set r <;> simp [Act.step, hr, hset] at htx' <;>
          exact hcons _ hwants (by rw [← htx']; rfl)

/-! ## Configurations and steps

Waiting is not a state of a program. A program whose next act would have to wait has no step until
the lock is free, and a deadlock is ended by dropping one of the connections, as the server does.
-/

/-- A running program: the request it serves, its open transaction, and what is left to do. -/
structure Proc (T : Type) [Schema T] (ε ρ Req : Type) where
  req : Req
  tx : Option (Tx T)
  code : Prog T ε ρ

/-- The committed state and all programs. Programs are numbered in the order they start. -/
structure Config (T : Type) [Schema T] (ε ρ Req : Type) where
  server : Server T
  procs : Nat → Option (Proc T ε ρ Req)
  next : Nat

namespace Config

/-- The server with nothing running. -/
def idle (s : Server T) : Config T ε ρ Req := ⟨s, fun _ => none, 0⟩

/-- The open transaction of connection `p`. -/
def tx (C : Config T ε ρ Req) (p : Nat) : Option (Tx T) := (C.procs p).bind fun pr => pr.tx

/-- What connection `p` works on. -/
def conn (C : Config T ε ρ Req) (p : Nat) : Conn T := ⟨C.tx p, C.server⟩

/-- No other connection holds a lock on `k` that conflicts with mode `m`. -/
def Clear (C : Config T ε ρ Req) (p : Nat) (k : Key T) (m : LockMode) : Prop :=
  ∀ q, q ≠ p → ∀ tx, C.tx q = some tx → ∀ l ∈ tx.locks, l.1 = k → m.conflicts l.2 = false

/-- No other connection has an undecided write that stands in a unique index with `row`. -/
def Undisputed (C : Config T ε ρ Req) (p : Nat) (t : T) (row : Row t) : Prop :=
  ∀ q, q ≠ p → ∀ tx, C.tx q = some tx → ∀ id, tx.Owns ⟨t, id⟩ → ∀ r,
    C.server.store.get t id = some r ∨ (tx.view C.server.store).get t id = some r →
      clash t r row = false

/-- **When an act need not wait**: the lock it wants is clear, and nobody is about to decide
whether the row it inserts is a duplicate. -/
def Enabled (C : Config T ε ρ Req) (p : Nat) (a : Act T) : Prop :=
  (∀ l, a.wants (C.conn p) = some l → C.Clear p l.1 l.2) ∧
    match a with
    | .insert t _ row _ _ _ => C.Undisputed p t (row C.server.seq)
    | _ => True

/-- Put program `p` into the state `pr`. -/
def setProc (C : Config T ε ρ Req) (p : Nat) (pr : Option (Proc T ε ρ Req)) :
    Config T ε ρ Req :=
  { C with procs := fun q => if q = p then pr else C.procs q }

/-- Connection `p` performs the act `a`, after which `k` is left to do. -/
def perform (C : Config T ε ρ Req) (p : Nat) (req : Req) (a : Act T)
    (k : a.Res → Prog T ε ρ) : Config T ε ρ Req :=
  let r := a.step p (C.conn p)
  { C.setProc p (some ⟨req, r.2.tx, k r.1⟩) with server := r.2.server }

end Config

/-- **One step of the world.** `prog` is the program of each request; `cond` restricts the commits
of the runs that are considered (`fun _ _ => True` for all runs). -/
inductive Step (prog : Req → Prog T ε ρ) (cond : Nat → Conn T → Prop) :
    Config T ε ρ Req → Config T ε ρ Req → Prop where
  | spawn (C : Config T ε ρ Req) (req : Req) :
      Step prog cond C { C.setProc C.next (some ⟨req, none, prog req⟩) with next := C.next + 1 }
  | act (C : Config T ε ρ Req) (p : Nat) (pr : Proc T ε ρ Req) (a : Act T)
      (k : a.Res → Prog T ε ρ) (hp : C.procs p = some pr) (hcode : pr.code = .act a k)
      (hen : C.Enabled p a) (hcond : a = .commit → cond p (C.conn p)) :
      Step prog cond C (C.perform p pr.req a k)
  | drop (C : Config T ε ρ Req) (p : Nat) : Step prog cond C (C.setProc p none)
  | tick (C : Config T ε ρ Req) (d : Nat) :
      Step prog cond C { C with server := { C.server with clock := C.server.clock + d } }

/-- Any number of steps of the world. -/
abbrev Steps (prog : Req → Prog T ε ρ) (cond : Nat → Conn T → Prop) :
    Config T ε ρ Req → Config T ε ρ Req → Prop :=
  Relation.ReflTransGen (Step prog cond)

/-- The configurations that runs from the idle server `s₀` reach. -/
def ReachableIf (prog : Req → Prog T ε ρ) (cond : Nat → Conn T → Prop) (s₀ : Server T)
    (C : Config T ε ρ Req) : Prop :=
  Relation.ReflTransGen (Step prog cond) (Config.idle s₀) C

/-- The configurations that all runs from the idle server `s₀` reach. -/
abbrev Reachable (prog : Req → Prog T ε ρ) (s₀ : Server T) (C : Config T ε ρ Req) : Prop :=
  ReachableIf prog (fun _ _ => True) s₀ C

theorem Step.mono {prog : Req → Prog T ε ρ} {cond cond' : Nat → Conn T → Prop}
    {C C' : Config T ε ρ Req} (h : ∀ p c, cond p c → cond' p c) (hs : Step prog cond C C') :
    Step prog cond' C C' := by
  cases hs with
  | spawn req => exact .spawn C req
  | act p pr a k hp hcode hen hcond =>
    exact .act C p pr a k hp hcode hen fun ha => h p _ (hcond ha)
  | drop p => exact .drop C p
  | tick d => exact .tick C d

/-- A restricted run is a run. -/
theorem ReachableIf.reachable {prog : Req → Prog T ε ρ} {cond : Nat → Conn T → Prop}
    {s₀ : Server T} {C : Config T ε ρ Req} (h : ReachableIf prog cond s₀ C) :
    Reachable prog s₀ C :=
  Relation.ReflTransGen.mono (fun _ _ hs => hs.mono fun _ _ _ => trivial) _ _ h

namespace Config

variable (C : Config T ε ρ Req)

@[simp] theorem tx_idle (s : Server T) (p : Nat) : (idle s : Config T ε ρ Req).tx p = none := rfl

@[simp] theorem conn_idle (s : Server T) (p : Nat) :
    (idle s : Config T ε ρ Req).conn p = ⟨none, s⟩ := rfl

theorem tx_setProc_self (p : Nat) (pr : Option (Proc T ε ρ Req)) :
    (C.setProc p pr).tx p = pr.bind fun pr => pr.tx := by simp [tx, setProc]

theorem tx_setProc_of_ne {p q : Nat} (pr : Option (Proc T ε ρ Req)) (h : q ≠ p) :
    (C.setProc p pr).tx q = C.tx q := by simp [tx, setProc, h]

theorem conn_perform_self (p : Nat) (req : Req) (a : Act T) (k : a.Res → Prog T ε ρ) :
    (C.perform p req a k).conn p = (a.step p (C.conn p)).2 := by
  simp [perform, conn, tx, setProc]

theorem tx_perform_of_ne {p q : Nat} (req : Req) (a : Act T) (k : a.Res → Prog T ε ρ)
    (h : q ≠ p) : (C.perform p req a k).tx q = C.tx q := by
  simp [perform, tx, setProc, h]

@[simp] theorem server_setProc (p : Nat) (pr : Option (Proc T ε ρ Req)) :
    (C.setProc p pr).server = C.server := rfl

@[simp] theorem server_perform (p : Nat) (req : Req) (a : Act T) (k : a.Res → Prog T ε ρ) :
    (C.perform p req a k).server = (a.step p (C.conn p)).2.server := rfl

end Config

/-! ## Locks exclude each other

The lock conflicts are not a part of the state; they follow from the condition under which an act
is enabled. What the other modules use is that a row has one writer.
-/

/-- Two transactions hold no conflicting locks. -/
def Compatible (tx tx' : Tx T) : Prop :=
  ∀ l ∈ tx.locks, ∀ l' ∈ tx'.locks, l.1 = l'.1 → l.2.conflicts l'.2 = false

/-- A transaction and the open transaction of a connection hold no conflicting locks. -/
def Conn.CompatibleWith (c : Conn T) (tx' : Tx T) : Prop :=
  ∀ tx, c.tx = some tx → Compatible tx tx'

theorem Compatible.symm {tx tx' : Tx T} (h : Compatible tx tx') : Compatible tx' tx := by
  intro l hl l' hl' hk
  rw [LockMode.conflicts_comm]
  exact h l' hl' l hl hk.symm

/-- **A row that one transaction owns is not owned by a compatible one.** -/
theorem Compatible.not_owns {tx tx' : Tx T} (h : Compatible tx tx') {k : Key T}
    (hk : tx.Owns k) : ¬tx'.Owns k := by
  rintro ⟨m', hm', hl'⟩
  obtain ⟨m, hm, hl⟩ := hk
  have hc := h _ hl _ hl' rfl
  rw [LockMode.conflicts_of_exclusive hm hm'] at hc
  cases hc

/-- The open transactions of a configuration hold no conflicting locks. -/
def Config.LocksExclude (C : Config T ε ρ Req) : Prop :=
  ∀ p q, p ≠ q → ∀ tx tx', C.tx p = some tx → C.tx q = some tx' → Compatible tx tx'

theorem Config.LocksExclude.step {prog : Req → Prog T ε ρ} {cond : Nat → Conn T → Prop}
    {C C' : Config T ε ρ Req} (h : C.LocksExclude) (hs : Step prog cond C C') :
    C'.LocksExclude := by
  -- a step changes the transaction of one connection only; by symmetry it is enough to compare
  -- that one with the others
  have key : ∀ p (C' : Config T ε ρ Req), (∀ q, q ≠ p → C'.tx q = C.tx q) →
      (∀ tx', C'.tx p = some tx' → ∀ q, q ≠ p → ∀ txq, C.tx q = some txq → Compatible tx' txq) →
      C'.LocksExclude := by
    intro p C' hsame hnew q r hqr tx tx' htx htx'
    by_cases hq : q = p
    · subst hq
      rw [hsame r (Ne.symm hqr)] at htx'
      exact hnew tx htx r (Ne.symm hqr) tx' htx'
    · rw [hsame q hq] at htx
      by_cases hr : r = p
      · subst hr
        exact (hnew tx' htx' q hq tx htx).symm
      · rw [hsame r hr] at htx'
        exact h q r hqr tx tx' htx htx'
  cases hs with
  | spawn req =>
    refine key C.next _ (fun q hq => C.tx_setProc_of_ne _ hq) ?_
    intro tx' htx'
    simp [Config.tx, Config.setProc] at htx'
  | act p pr a k hp hcode hen hcond =>
    refine key p _ (fun q hq => C.tx_perform_of_ne _ a k hq) ?_
    intro tx' htx' q hq txq htxq l hl l' hl' hk
    have hconn : (C.perform p pr.req a k).conn p = (a.step p (C.conn p)).2 :=
      C.conn_perform_self p _ a k
    have htx'' : (a.step p (C.conn p)).2.tx = some tx' := by rw [← hconn]; exact htx'
    rcases a.step_locks p (C.conn p) htx'' hl with ⟨tx, htx, hmem⟩ | hwants
    · exact h p q (Ne.symm hq) tx txq htx htxq l hmem l' hl' hk
    · exact hen.1 l hwants q hq txq htxq l' hl' hk.symm
  | drop p =>
    refine key p _ (fun q hq => C.tx_setProc_of_ne _ hq) ?_
    intro tx' htx'
    simp [Config.tx_setProc_self] at htx'
  | tick d => exact h

/-- **In every reachable configuration, row locks exclude each other.** -/
theorem ReachableIf.locksExclude {prog : Req → Prog T ε ρ} {cond : Nat → Conn T → Prop}
    {s₀ : Server T} {C : Config T ε ρ Req} (h : ReachableIf prog cond s₀ C) :
    C.LocksExclude := by
  induction h with
  | refl =>
    intro p q _ tx tx' htx
    simp at htx
  | tail _ hs ih => exact ih.step hs

end ReadCommitted
