import ArcAdmin.ReadCommitted.RowLaw

/-!
# Contracts: a program logic under interference

The rule for facts that depend on what a program does. A `Contract` fixes what each connection
owes the others when it commits (`guar`), an invariant of the committed state (`inv`), and what is
known of every connection anyway (`base`). Between two acts of a program the others may interfere
as often as they like, as long as they keep the contract.

The logic is one of rely and guarantee, in which the guarantee is due at commits only: what a
program does before its commit is invisible to the others but for its locks. So a proof about a
program is a proof about its own text, with assertions that are stable under the contract, and a
proof about the service is the list of such proofs, one for each request.

* **`wp`** — `m` keeps its obligations from here on and ends, if it returns, in a state that
  satisfies `Q`, whatever the others do meanwhile;
* **`Triple`** and its rules: `bind`, `perform`, `reject`, `okOr`, `whenever`, `forEach`, `of_all`;
* **`Contract.sound`** — if every program of the world satisfies its `wp`, then in every reachable
  configuration the invariant holds, and every commit meets the guarantee
  (`Contract.guar_of_commit`).
-/

namespace ReadCommitted

open Schema (Id Row Ev serialNo clash Allowed)

variable {T : Type} [Schema T] {ε ρ Req α β : Type}

/-- What a program is judged by: what the others may do between its acts, what is known whenever
it acts, and what it owes when it commits. -/
structure Judge (T : Type) [Schema T] where
  rely : Conn T → Conn T → Prop
  base : Conn T → Prop
  guar : Conn T → Prop

namespace Judge

/-- Any number of steps of the others. -/
def Rely (J : Judge T) : Conn T → Conn T → Prop := Relation.ReflTransGen J.rely

/-- A property that interference keeps. -/
def Stable (J : Judge T) (P : Conn T → Prop) : Prop := ∀ c c', J.rely c c' → P c → P c'

variable {J : Judge T} {P Q : Conn T → Prop}

theorem Stable.rely (h : J.Stable P) {c c' : Conn T} (hr : J.Rely c c') (hc : P c) : P c' := by
  induction hr with
  | refl => exact hc
  | tail _ hs ih => exact h _ _ hs ih

theorem Stable.and (hP : J.Stable P) (hQ : J.Stable Q) : J.Stable fun c => P c ∧ Q c :=
  fun c c' hr h => ⟨hP c c' hr h.1, hQ c c' hr h.2⟩

theorem Stable.or (hP : J.Stable P) (hQ : J.Stable Q) : J.Stable fun c => P c ∨ Q c :=
  fun c c' hr h => h.imp (hP c c' hr) (hQ c c' hr)

theorem Stable.const (φ : Prop) : J.Stable fun _ => φ := fun _ _ _ h => h

theorem Stable.exists {ι : Sort*} {P : ι → Conn T → Prop} (h : ∀ i, J.Stable (P i)) :
    J.Stable fun c => ∃ i, P i c :=
  fun c c' hr ⟨i, hi⟩ => ⟨i, h i c c' hr hi⟩

theorem Stable.forall {ι : Sort*} {P : ι → Conn T → Prop} (h : ∀ i, J.Stable (P i)) :
    J.Stable fun c => ∀ i, P i c :=
  fun c c' hr hc i => h i c c' hr (hc i)

/-- The others leave the transaction of a connection alone. -/
def Private (J : Judge T) : Prop := ∀ c c', J.rely c c' → c'.tx = c.tx

theorem Private.stable (h : J.Private) (P : Option (Tx T) → Prop) : J.Stable fun c => P c.tx := by
  intro c c' hr hc
  rw [h c c' hr]
  exact hc

/-- The judge of a program that owes `G` besides when it commits. -/
def owing (J : Judge T) (G : Conn T → Prop) : Judge T :=
  { J with guar := fun c => J.guar c ∧ G c }

end Judge

/-- **The weakest precondition under interference.** -/
def wp (J : Judge T) (p : Nat) : Prog T ε α → (α → Conn T → Prop) → Conn T → Prop
  | .ret a, Q, c => ∀ c', J.Rely c c' → J.base c' → Q a c'
  | .fail _, _, _ => True
  | .act a k, Q, c => ∀ c', J.Rely c c' → J.base c' →
      (a = .commit → J.guar c') ∧ wp J p (k (a.step p c').1) Q (a.step p c').2

section wp

variable {J : Judge T} {p : Nat} {m : Prog T ε α} {Q R : α → Conn T → Prop} {c c' : Conn T}

theorem wp_ret {a : α} :
    wp J p (.ret a : Prog T ε α) Q c ↔ ∀ c', J.Rely c c' → J.base c' → Q a c' := Iff.rfl

theorem wp_act {a : Act T} {k : a.Res → Prog T ε α} : wp J p (.act a k) Q c ↔
    ∀ c', J.Rely c c' → J.base c' →
      (a = .commit → J.guar c') ∧ wp J p (k (a.step p c').1) Q (a.step p c').2 := Iff.rfl

/-- Interference before the first act is allowed for. -/
theorem wp_rely (h : wp J p m Q c) (hr : J.Rely c c') : wp J p m Q c' := by
  cases m with
  | ret a => exact fun d hd hb => h d (hr.trans hd) hb
  | fail e => trivial
  | act a k => exact fun d hd hb => h d (hr.trans hd) hb

theorem wp_mono (hQR : ∀ a c, Q a c → R a c) (h : wp J p m Q c) : wp J p m R c := by
  induction m generalizing c with
  | ret a => exact fun d hd hb => hQR _ _ (h d hd hb)
  | fail e => trivial
  | act a k ih => exact fun d hd hb => ⟨(h d hd hb).1, ih _ (h d hd hb).2⟩

theorem wp_and (hQ : wp J p m Q c) (hR : wp J p m R c) : wp J p m (fun a c => Q a c ∧ R a c) c := by
  induction m generalizing c with
  | ret a => exact fun d hd hb => ⟨hQ d hd hb, hR d hd hb⟩
  | fail e => trivial
  | act a k ih =>
    exact fun d hd hb => ⟨(hQ d hd hb).1, ih _ (hQ d hd hb).2 (hR d hd hb).2⟩

/-- A program that owes more owes less. -/
theorem wp_guar {g g' : Conn T → Prop} (hg : ∀ c, g c → g' c)
    (h : wp { J with guar := g } p m Q c) : wp { J with guar := g' } p m Q c := by
  induction m generalizing c with
  | ret a => exact h
  | fail e => trivial
  | act a k ih => exact fun d hd hb => ⟨fun ha => hg d ((h d hd hb).1 ha), ih _ (h d hd hb).2⟩

/-- It is enough to look at the states after some interference. -/
theorem wp_of_rely (h : ∀ d, J.Rely c d → J.base d → wp J p m Q d) : wp J p m Q c := by
  cases m with
  | ret a => exact fun d hd hb => h d hd hb d .refl hb
  | fail e => trivial
  | act a k => exact fun d hd hb => h d hd hb d .refl hb

/-- **Sequencing.** -/
theorem wp_bind {f : α → Prog T ε β} {Q : β → Conn T → Prop}
    (h : wp J p m (fun a => wp J p (f a) Q) c) : wp J p (m >>= f) Q c := by
  induction m generalizing c with
  | ret a => exact wp_of_rely h
  | fail e => trivial
  | act a k ih => exact fun d hd hb => ⟨(h d hd hb).1, ih _ (h d hd hb).2⟩

end wp

/-- **Hoare triples under interference.** -/
def Triple (J : Judge T) (p : Nat) (P : Conn T → Prop) (m : Prog T ε α)
    (Q : α → Conn T → Prop) : Prop := ∀ c, P c → wp J p m Q c

namespace Triple

variable {J : Judge T} {p : Nat} {P P' : Conn T → Prop} {m : Prog T ε α}
  {Q Q' : α → Conn T → Prop}

theorem conseq (h : Triple J p P m Q) (hP : ∀ c, P' c → P c) (hQ : ∀ a c, Q a c → Q' a c) :
    Triple J p P' m Q' :=
  fun c hc => wp_mono hQ (h c (hP c hc))

theorem post (h : Triple J p P m Q) (hQ : ∀ a c, Q a c → Q' a c) : Triple J p P m Q' :=
  h.conseq (fun _ hc => hc) hQ

theorem pre (h : Triple J p P m Q) (hP : ∀ c, P' c → P c) : Triple J p P' m Q :=
  h.conseq hP fun _ _ hc => hc

/-- **Sequencing.** -/
theorem bind {R : α → Conn T → Prop} {f : α → Prog T ε β} {Q : β → Conn T → Prop}
    (hm : Triple J p P m R) (hf : ∀ a, Triple J p (R a) (f a) Q) : Triple J p P (m >>= f) Q :=
  fun c hc => wp_bind (wp_mono (fun a d hd => hf a d hd) (hm c hc))

theorem and (h : Triple J p P m Q) (h' : Triple J p P' m Q') :
    Triple J p (fun c => P c ∧ P' c) m fun a c => Q a c ∧ Q' a c :=
  fun c hc => wp_and (h c hc.1) (h' c hc.2)

/-- A fact that does not depend on the state may be assumed throughout. -/
theorem assuming {φ : Prop} (h : φ → Triple J p P m Q) :
    Triple J p (fun c => φ ∧ P c) m Q :=
  fun c hc => h hc.1 c hc.2

/-- A witness in the precondition may be fixed. -/
theorem ofExists {ι : Sort*} {P : ι → Conn T → Prop} (h : ∀ i, Triple J p (P i) m Q) :
    Triple J p (fun c => ∃ i, P i c) m Q :=
  fun c ⟨i, hi⟩ => h i c hi

theorem ret {a : α} (hst : J.Stable P) (h : ∀ c, J.base c → P c → Q a c) :
    Triple J p P (.ret a : Prog T ε α) Q :=
  fun _ hc d hd hb => h d hb (hst.rely hd hc)

theorem fail {e : ε} : Triple J p P (.fail e : Prog T ε α) Q := fun _ _ => trivial

/-- **One act.** From a stable precondition it is enough to look at the act itself. -/
theorem perform {a : Act T} {Q : a.Res → Conn T → Prop} (hst : J.Stable P)
    (hst' : ∀ r, J.Stable (Q r))
    (h : ∀ c, J.base c → P c → (a = .commit → J.guar c) ∧ Q (a.step p c).1 (a.step p c).2) :
    Triple J p P (Prog.perform a : Prog T ε a.Res) Q := by
  intro c hc d hd hb
  obtain ⟨hg, hq⟩ := h d hb (hst.rely hd hc)
  exact ⟨hg, fun d' hd' _ => (hst' _).rely hd' hq⟩

theorem reject {cond : Bool} {e : ε} (hst : J.Stable P) :
    Triple J p P (Prog.reject cond e : Prog T ε Unit) fun _ c => cond = false ∧ P c := by
  cases cond
  · exact ret hst fun c _ hc => ⟨rfl, hc⟩
  · exact fail

theorem okOr {o : Option α} {e : ε} (hst : J.Stable P) :
    Triple J p P (Prog.okOr o e : Prog T ε α) fun a c => o = some a ∧ P c := by
  cases o
  · exact fail
  · exact ret hst fun c _ hc => ⟨rfl, hc⟩

theorem okOrThrow {x : Except ε α} (hst : J.Stable P) :
    Triple J p P (Prog.okOrThrow x : Prog T ε α) fun a c => x = .ok a ∧ P c := by
  cases x
  · exact fail
  · exact ret hst fun c _ hc => ⟨rfl, hc⟩

theorem whenever {cond : Bool} {m : Prog T ε Unit} {Q : Unit → Conn T → Prop}
    (hst : J.Stable P) (hm : cond = true → Triple J p P m Q)
    (hskip : cond = false → ∀ c, J.base c → P c → Q () c) :
    Triple J p P (Prog.whenever cond m) Q := by
  cases cond
  · exact ret hst (hskip rfl)
  · exact hm rfl

theorem ifSome {o : Option α} {f : α → Prog T ε Unit} {Q : Unit → Conn T → Prop}
    (hst : J.Stable P) (hf : ∀ a, o = some a → Triple J p P (f a) Q)
    (hskip : o = none → ∀ c, J.base c → P c → Q () c) :
    Triple J p P (Prog.ifSome o f) Q := by
  cases o with
  | none => exact ret hst (hskip rfl)
  | some a => exact hf a rfl

/-- **The loop rule.** `I done` holds once the body has run for the elements in `done`. -/
theorem forEachDone {as : List α} {f : α → Prog T ε Unit} {I : List α → Conn T → Prop}
    (hst : ∀ done, J.Stable (I done))
    (h : ∀ done, ∀ a ∈ as, Triple J p (I done) (f a) fun _ => I (done ++ [a])) (done : List α) :
    Triple J p (I done) (Prog.forEach as f) fun _ => I (done ++ as) := by
  induction as generalizing done with
  | nil =>
    rw [List.append_nil]
    exact ret (hst done) fun _ _ hc => hc
  | cons a as ih =>
    rw [Prog.forEach_cons]
    refine (h done a (by simp)).bind fun _ => ?_
    refine (ih (fun done' b hb => h done' b (by simp [hb])) (done ++ [a])).post fun _ c hc => ?_
    simpa using hc

/-- An invariant of the body is an invariant of the loop. -/
theorem forEach {as : List α} {f : α → Prog T ε Unit} (hst : J.Stable P)
    (h : ∀ a ∈ as, Triple J p P (f a) fun _ => P) :
    Triple J p P (Prog.forEach as f) fun _ => P :=
  forEachDone (I := fun _ => P) (fun _ => hst) (fun _ => h) []

end Triple

/-! ## Programs all of whose acts are harmless

Most of a request has nothing to do with a given property. Such parts are passed with a syntactic
condition on their acts, without an assertion in between.
-/

/-- Every act that `m` may perform satisfies `ok`. -/
inductive Prog.All (ok : Act T → Prop) : Prog T ε α → Prop where
  | ret {a : α} : Prog.All ok (.ret a)
  | fail {e : ε} : Prog.All ok (.fail e)
  | act {a : Act T} {k : a.Res → Prog T ε α} (ha : ok a) (hk : ∀ r, Prog.All ok (k r)) :
    Prog.All ok (.act a k)

namespace Prog.All

variable {ok : Act T → Prop} {m : Prog T ε α}

theorem bind {f : α → Prog T ε β} (hm : m.All ok) (hf : ∀ a, (f a).All ok) :
    (m >>= f).All ok := by
  induction hm with
  | ret => exact hf _
  | fail => exact .fail
  | act ha _ ih => exact .act ha ih

theorem all_perform {a : Act T} (h : ok a) : (Prog.perform a : Prog T ε a.Res).All ok :=
  .act h fun _ => .ret

theorem all_reject (cond : Bool) (e : ε) : (Prog.reject cond e : Prog T ε Unit).All ok := by
  cases cond
  · exact .ret
  · exact .fail

theorem all_okOr (o : Option α) (e : ε) : (Prog.okOr o e : Prog T ε α).All ok := by
  cases o
  · exact .fail
  · exact .ret

theorem all_okOrThrow (x : Except ε α) : (Prog.okOrThrow x : Prog T ε α).All ok := by
  cases x
  · exact .fail
  · exact .ret

theorem whenever {cond : Bool} {m : Prog T ε Unit} (hm : m.All ok) :
    (Prog.whenever cond m).All ok := by
  cases cond
  · exact .ret
  · exact hm

theorem ifSome {o : Option α} {f : α → Prog T ε Unit} (hf : ∀ a, (f a).All ok) :
    (Prog.ifSome o f).All ok := by
  cases o with
  | none => exact .ret
  | some a => exact hf a

theorem forEach {as : List α} {f : α → Prog T ε Unit} (hf : ∀ a, (f a).All ok) :
    (Prog.forEach as f).All ok := by
  induction as with
  | nil => exact .ret
  | cons a as ih => exact bind (hf a) fun _ => ih

theorem mono {ok' : Act T → Prop} (h : m.All ok) (hok : ∀ a, ok a → ok' a) : m.All ok' := by
  induction h with
  | ret => exact .ret
  | fail => exact .fail
  | act ha _ ih => exact .act (hok _ ha) ih

theorem and {ok' : Act T → Prop} (h : m.All ok) (h' : m.All ok') :
    m.All fun a => ok a ∧ ok' a := by
  induction h with
  | ret => exact .ret
  | fail => exact .fail
  | act ha _ ih =>
    cases h' with
    | act ha' hk' => exact .act ⟨ha, ha'⟩ fun r => ih r (hk' r)

end Prog.All

/-- **A program of harmless acts keeps what each of its acts keeps.** -/
theorem Triple.of_all {J : Judge T} {p : Nat} {P : Conn T → Prop} {m : Prog T ε α}
    {ok : Act T → Prop} (hst : J.Stable P)
    (hok : ∀ a, ok a → ∀ c, J.base c → P c →
      (a = .commit → J.guar c) ∧ P (a.step p c).2)
    (hm : m.All ok) : Triple J p P m fun _ => P := by
  induction hm with
  | ret => exact Triple.ret hst fun _ _ hc => hc
  | fail => exact Triple.fail
  | act ha _ ih =>
    intro c hc d hd hb
    obtain ⟨hg, hP⟩ := hok _ ha d hb (hst.rely hd hc)
    exact ⟨hg, ih _ _ hP⟩

/-- What a program owes when it commits does not matter to one that does not commit. -/
theorem Triple.owing {J : Judge T} {p : Nat} {P : Conn T → Prop} {m : Prog T ε α}
    {Q : α → Conn T → Prop} {G : Conn T → Prop} (hm : m.All (· ≠ .commit))
    (h : Triple J p P m Q) : Triple (J.owing G) p P m Q := by
  intro c hc
  have hwp := h c hc
  clear h hc
  induction hm generalizing c with
  | ret => exact hwp
  | fail => trivial
  | act ha _ ih =>
    intro d hd hb
    exact ⟨fun heq => absurd heq ha, ih _ _ (hwp d hd hb).2⟩

/-! ## Contracts between all programs of the world

The contract is circular on purpose: each program may rely on what the others guarantee. The
induction over the run breaks the circle, since a program relies on commits that have taken place.
-/

/-- A contract: what is known of every connection, the invariant of the committed state, and what
a connection owes when it commits. -/
structure Contract (T : Type) [Schema T] where
  base : Nat → Conn T → Prop
  inv : Server T → Prop
  guar : Nat → Conn T → Prop

namespace Contract

/-- What is known of a connection that keeps the contract and is about to commit. -/
def Commits (K : Contract T) (q : Nat) (c : Conn T) : Prop := K.base q c ∧ K.guar q c

/-- The judge of connection `p` under the contract. -/
def judge (K : Contract T) (p : Nat) : Judge T where
  rely c c' := K.base p c ∧ K.inv c.server ∧ K.base p c' ∧ K.inv c'.server ∧
    Interferes K.Commits (fun _ _ => True) p c c'
  base c := K.base p c ∧ K.inv c.server
  guar c := K.guar p c ∧ ∀ tx, c.tx = some tx → K.inv (c.server.commit p tx)

/-- **Every program of the world keeps the contract**, and the program of each request owes `G`
besides when it commits. -/
structure KeptWith (K : Contract T) (prog : Req → Prog T ε ρ) (s₀ : Server T)
    (G : Req → Conn T → Prop) (Q : Nat → Req → ρ → Conn T → Prop) : Prop where
  base : ∀ (C : Config T ε ρ Req), Reachable prog s₀ C → ∀ p, K.base p (C.conn p)
  init : K.inv s₀
  advance : ∀ (s : Server T) n d, K.inv s →
    K.inv { s with seq := s.seq + n, clock := s.clock + d }
  prog : ∀ p req, Triple ((K.judge p).owing (G req)) p (fun c => c.tx = none) (prog req) (Q p req)

/-- Every program of the world keeps the contract. -/
structure Kept (K : Contract T) (prog : Req → Prog T ε ρ) (s₀ : Server T)
    (Q : Nat → Req → ρ → Conn T → Prop) : Prop where
  base : ∀ (C : Config T ε ρ Req), Reachable prog s₀ C → ∀ p, K.base p (C.conn p)
  init : K.inv s₀
  advance : ∀ (s : Server T) n d, K.inv s →
    K.inv { s with seq := s.seq + n, clock := s.clock + d }
  prog : ∀ p req, Triple (K.judge p) p (fun c => c.tx = none) (prog req) (Q p req)

variable {K : Contract T} {prog : Req → Prog T ε ρ} {s₀ : Server T} {G : Req → Conn T → Prop}
  {Q : Nat → Req → ρ → Conn T → Prop} {C : Config T ε ρ Req}

/-- A contract without further obligations. -/
theorem Kept.owingNothing (hK : K.Kept prog s₀ Q) : K.KeptWith prog s₀ (fun _ _ => True) Q where
  base := hK.base
  init := hK.init
  advance := hK.advance
  prog p req c hc := wp_guar (fun _ hg => ⟨hg, trivial⟩) (hK.prog p req c hc)

/-- **Soundness.** In every reachable configuration the invariant holds and every program is
still on the way its `wp` describes. -/
theorem soundWith (hK : K.KeptWith prog s₀ G Q) (h : Reachable prog s₀ C) :
    K.inv C.server ∧ ∀ p pr, C.procs p = some pr →
      wp ((K.judge p).owing (G pr.req)) p pr.code (Q p pr.req) (C.conn p) := by
  induction h with
  | refl => exact ⟨hK.init, fun p pr h => by cases h⟩
  | @tail C C' hreach hs ih =>
    obtain ⟨hinv, hwp⟩ := ih
    have hreach' : Reachable prog s₀ C' := hreach.tail hs
    -- one step of interference, seen by a program that did not act
    have hother : K.inv C'.server → ∀ q pr, C.procs q = some pr →
        Interferes K.Commits (fun _ _ => True) q (C.conn q) (C'.conn q) →
        wp ((K.judge q).owing (G pr.req)) q pr.code (Q q pr.req) (C'.conn q) := by
      intro hinv' q pr hq hi
      refine wp_rely (hwp q pr hq) (.single ?_)
      exact ⟨hK.base C hreach q, hinv, hK.base C' hreach' q, hinv', hi⟩
    cases hs with
    | spawn req =>
      refine ⟨hinv, fun p pr hp => ?_⟩
      by_cases hpn : p = C.next
      · subst hpn
        have hpr : pr = ⟨req, none, prog req⟩ := by simpa [Config.setProc] using hp.symm
        subst hpr
        exact hK.prog _ req _ (by simp [Config.conn, Config.tx, Config.setProc])
      · have hp' : C.procs p = some pr := by simpa [Config.setProc, hpn] using hp
        have hconn : ({ C.setProc C.next (some ⟨req, none, prog req⟩) with
            next := C.next + 1 } : Config T ε ρ Req).conn p = C.conn p := by
          simp [Config.conn, Config.tx, Config.setProc, hpn]
        rw [hconn]
        exact hwp p pr hp'
    | drop q =>
      refine ⟨hinv, fun p pr hp => ?_⟩
      by_cases hpq : p = q
      · subst hpq
        simp [Config.setProc] at hp
      · have hp' : C.procs p = some pr := by simpa [Config.setProc, hpq] using hp
        have hconn : (C.setProc q none).conn p = C.conn p := by
          simp [Config.conn, C.tx_setProc_of_ne none hpq]
        rw [hconn]
        exact hwp p pr hp'
    | tick d =>
      have hinv' := hK.advance C.server 0 d hinv
      exact ⟨hinv', fun p pr hp => hother hinv' p pr hp (.tick _ d)⟩
    | act q pr a k hq hcode hen hcond =>
      have hwpq := hwp q pr hq
      rw [hcode] at hwpq
      obtain ⟨hguar, hnext⟩ := hwpq _ .refl ⟨hK.base C hreach q, hinv⟩
      -- the invariant after the act
      have hinv' : K.inv (C.perform q pr.req a k).server := by
        rw [Config.server_perform]
        rcases a.step_server q (C.conn q) with ⟨d, hserver⟩ | ⟨tx, htx, ha, hserver⟩
        · rw [hserver]
          exact hK.advance C.server d 0 hinv
        · rw [hserver]
          exact (hguar ha).1.2 tx htx
      refine ⟨hinv', fun p pr' hp => ?_⟩
      by_cases hpq : p = q
      · subst hpq
        rw [C.conn_perform_self]
        have hpr : pr' = ⟨pr.req, (a.step p (C.conn p)).2.tx, k (a.step p (C.conn p)).1⟩ := by
          simpa [Config.perform, Config.setProc] using hp.symm
        subst hpr
        exact hnext
      · have hp' : C.procs p = some pr' := by
          simpa [Config.perform, Config.setProc, hpq] using hp
        refine hother hinv' p pr' hp' ?_
        have hconn : (C.perform q pr.req a k).conn p =
            ⟨C.tx p, (a.step q (C.conn q)).2.server⟩ := by
          simp [Config.conn, C.tx_perform_of_ne pr.req a k hpq]
        rw [hconn]
        rcases a.step_server q (C.conn q) with ⟨d, hserver⟩ | ⟨tx, htx, ha, hserver⟩
        · rw [hserver]
          exact .draw (C.conn p) d
        · rw [hserver]
          have hcommit : K.Commits q (⟨some tx, (C.conn p).server⟩ : Conn T) := by
            have hc : (⟨some tx, (C.conn p).server⟩ : Conn T) = C.conn q := by
              rw [← htx]
              rfl
            rw [hc]
            exact ⟨hK.base C hreach q, (hguar ha).1.1⟩
          refine .commit (C.conn p) q tx (Ne.symm hpq) ?_ hcommit trivial
          intro tx₁ htx₁
          exact ReachableIf.locksExclude hreach p q hpq tx₁ tx htx₁ htx

/-- Soundness, without further obligations. -/
theorem sound (hK : K.Kept prog s₀ Q) (h : Reachable prog s₀ C) :
    K.inv C.server ∧ ∀ p pr, C.procs p = some pr →
      wp (K.judge p) p pr.code (Q p pr.req) (C.conn p) := by
  obtain ⟨hinv, hwp⟩ := soundWith hK.owingNothing h
  exact ⟨hinv, fun p pr hp => wp_guar (fun _ hg => hg.1) (hwp p pr hp)⟩

/-- **Every commit of every run meets the guarantee**, and what its request owes. -/
theorem owes_of_commit (hK : K.KeptWith prog s₀ G Q) (h : Reachable prog s₀ C) {p : Nat}
    {pr : Proc T ε ρ Req} {k : Act.Res (T := T) .commit → Prog T ε ρ} (hp : C.procs p = some pr)
    (hcode : pr.code = .act .commit k) : K.guar p (C.conn p) ∧ G pr.req (C.conn p) := by
  have hwp := (soundWith hK h).2 p pr hp
  rw [hcode] at hwp
  have hguar := (hwp _ .refl ⟨hK.base C h p, (soundWith hK h).1⟩).1 rfl
  exact ⟨hguar.1.1, hguar.2⟩

/-- **Every commit of every run meets the guarantee.** -/
theorem guar_of_commit (hK : K.Kept prog s₀ Q) (h : Reachable prog s₀ C) {p : Nat}
    {pr : Proc T ε ρ Req} {k : Act.Res (T := T) .commit → Prog T ε ρ} (hp : C.procs p = some pr)
    (hcode : pr.code = .act .commit k) : K.guar p (C.conn p) := by
  have hwp := (sound hK h).2 p pr hp
  rw [hcode] at hwp
  exact ((hwp _ .refl ⟨hK.base C h p, (sound hK h).1⟩).1 rfl).1

/-- **The step that commits for a request** meets the guarantee and what the request owes. -/
theorem owes_of_commits (hK : K.KeptWith prog s₀ G Q) {cond : Nat → Conn T → Prop}
    {C' : Config T ε ρ Req} (h : Reachable prog s₀ C) (hs : Step prog cond C C') {req : Req}
    (hc : C.Commits C' req) :
    ∃ p tx, C'.server = C.server.commit p tx ∧ K.Commits p ⟨some tx, C.server⟩ ∧
      G req ⟨some tx, C.server⟩ ∧ cond p ⟨some tx, C.server⟩ := by
  obtain ⟨p, pr, k, tx, hp, hreq, hcode, hconn, hserver, hcond⟩ := hc.cases hs
  have hbase := hK.base C h p
  have howes := owes_of_commit hK h hp hcode
  rw [hconn] at hbase howes
  rw [hreq] at howes
  exact ⟨p, tx, hserver, ⟨hbase, howes.1⟩, howes.2, hcond⟩

/-- **A step of a run leaves what is committed alone, or it is a commit that meets the
guarantee.** -/
theorem guar_of_step (hK : K.Kept prog s₀ Q) {cond : Nat → Conn T → Prop}
    {C' : Config T ε ρ Req} (h : Reachable prog s₀ C) (hs : Step prog cond C C') :
    (C'.server.store = C.server.store ∧ C'.server.log = C.server.log) ∨
      ∃ p tx, C.conn p = ⟨some tx, C.server⟩ ∧ C'.server = C.server.commit p tx ∧
        K.Commits p ⟨some tx, C.server⟩ ∧ cond p ⟨some tx, C.server⟩ := by
  refine hs.commits.imp_right ?_
  rintro ⟨p, pr, k, tx, hp, hcode, hconn, hserver, hcond⟩
  have hbase := hK.base C h p
  have hguar := guar_of_commit hK h hp hcode
  rw [hconn] at hbase hguar
  exact ⟨p, tx, hconn, hserver, ⟨hbase, hguar⟩, hcond⟩

end Contract

-- from here on programs are taken apart by the rules only
attribute [irreducible] wp

end ReadCommitted
