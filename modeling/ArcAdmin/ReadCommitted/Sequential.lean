import ArcAdmin.ReadCommitted.Rules

/-!
# One program at a time

Runs without interleaving. A program that runs alone meets every triple that it satisfies under
interference, and a sequence of such runs is a run of the world.

* **`Triple.ends`** — what a triple without interference says about a run that ends normally;
* **`Serves`** — requests served one after the other, and **`Serves.reachable`** — every state in
  between is reachable;
* **`play`** — the same as a function, for concrete runs, and **`reachable_play`**.
-/

namespace ReadCommitted

open Schema (Id Row Ev serialNo clash Allowed)

variable {T : Type} [Schema T] {ε ρ Req α : Type}

/-! ## No interference

The logic of triples, with others that do nothing: what a triple promises is then what a run
delivers.
-/

/-- Nobody else acts, and nothing is owed. -/
def Judge.alone : Judge T where
  rely _ _ := False
  base _ := True
  guar _ := True

/-- Alone, every property is stable. -/
theorem Judge.stable_alone (P : Conn T → Prop) : (Judge.alone : Judge T).Stable P :=
  fun _ _ h => h.elim

/-- **A run that ends normally ends where its weakest precondition says.** -/
theorem ends_of_wp {p : Nat} {m : Prog T ε α} {Q : α → Conn T → Prop} {c c' : Conn T} {a : α}
    (h : wp Judge.alone p m Q c) (he : Ends p m c a c') : Q a c' := by
  induction m generalizing c with
  | ret b =>
    obtain ⟨rfl, rfl⟩ := ends_ret.1 he
    exact wp_ret.1 h c' .refl trivial
  | fail e => exact (ends_fail he).elim
  | act b k ih =>
    exact ih _ (wp_act.1 h c .refl trivial).2 he

/-- **A triple without interference, for a run that ends normally.** -/
theorem Triple.ends {p : Nat} {m : Prog T ε α} {P : Conn T → Prop} {Q : α → Conn T → Prop}
    (h : Triple Judge.alone p P m Q) {c c' : Conn T} {a : α} (hc : P c) (he : Ends p m c a c') :
    Q a c' :=
  ends_of_wp (h c hc) he

/-! ## Idle configurations

Between two requests that are served one after the other nothing is running.
-/

/-- The server with nothing running, after `n` programs have started. -/
def Config.rest (n : Nat) (s : Server T) : Config T ε ρ Req := ⟨s, fun _ => none, n⟩

section Idle

variable {prog : Req → Prog T ε ρ} {cond : Nat → Conn T → Prop} {s₀ : Server T}
  {C : Config T ε ρ Req}

/-- Only programs that have started are running. -/
theorem ReachableIf.not_started (h : ReachableIf prog cond s₀ C) :
    ∀ q, C.next ≤ q → C.procs q = none := by
  induction h with
  | refl => exact fun _ _ => rfl
  | @tail C C' _ hs ih =>
    have hset : ∀ p pr, p < C.next → ∀ q, C.next ≤ q → (C.setProc p pr).procs q = none := by
      intro p pr hp q hq
      have hne : q ≠ p := by omega
      simp only [Config.setProc, if_neg hne]
      exact ih q hq
    cases hs with
    | spawn req =>
      intro q hq
      have hne : q ≠ C.next := Nat.ne_of_gt hq
      have hq' : C.next ≤ q := Nat.le_of_succ_le hq
      simp only [Config.setProc, if_neg hne]
      exact ih q hq'
    | act p pr a k hp hcode hen hcond =>
      have hlt : p < C.next := by
        by_contra hge
        rw [ih p (Nat.not_lt.1 hge)] at hp
        cases hp
      exact hset p _ hlt
    | drop p =>
      intro q hq
      simp only [Config.setProc]
      split
      · rfl
      · exact ih q hq
    | tick d => exact ih

/-- **All connections may be dropped**: the committed state stays reachable with nothing
running. -/
theorem ReachableIf.rest (h : ReachableIf prog cond s₀ C) :
    ReachableIf prog cond s₀ (Config.rest C.next C.server : Config T ε ρ Req) := by
  -- drop the connections below `n`, one after the other
  have hdrop : ∀ n, ReachableIf prog cond s₀
      ({ C with procs := fun q => if q < n then none else C.procs q } : Config T ε ρ Req) := by
    intro n
    induction n with
    | zero => simpa using h
    | succ n ih =>
      have hstep := Relation.ReflTransGen.tail ih (Step.drop _ n)
      have hprocs : (fun q => if q = n then none else if q < n then none else C.procs q) =
          fun q => if q < n + 1 then none else C.procs q := by
        funext q
        by_cases hq : q = n
        · subst hq
          simp
        · have hlt : q < n + 1 ↔ q < n := by omega
          simp only [if_neg hq, hlt]
      rw [← hprocs]
      exact hstep
  have hall := hdrop C.next
  have hnone : (fun q => if q < C.next then none else C.procs q) = fun _ => none := by
    funext q
    by_cases hq : q < C.next
    · rw [if_pos hq]
    · rw [if_neg hq]
      exact h.not_started q (Nat.not_lt.1 hq)
  rw [hnone] at hall
  exact hall

end Idle

/-! ## Running one program

A program that runs alone never has to wait, so its run is a run of the world.
-/

section Alone

variable {prog : Req → Prog T ε ρ} {s₀ : Server T}

/-- **A program runs to its end** while every other connection is idle. -/
theorem reachable_of_code {C : Config T ε ρ Req} (h : Reachable prog s₀ C) {p : Nat}
    {pr : Proc T ε ρ Req} (hp : C.procs p = some pr) (hidle : ∀ q, q ≠ p → C.procs q = none) :
    Reachable prog s₀
      (Config.rest C.next (pr.code.run p ⟨pr.tx, C.server⟩).2.server : Config T ε ρ Req) := by
  obtain ⟨req, tx, code⟩ := pr
  induction code generalizing C tx with
  | ret a => exact ReachableIf.rest h
  | fail e => exact ReachableIf.rest h
  | act a k ih =>
    have hconn : C.conn p = ⟨tx, C.server⟩ := by simp [Config.conn, Config.tx, hp]
    have hnone : ∀ q, q ≠ p → C.tx q = none := by
      intro q hq
      simp [Config.tx, hidle q hq]
    have hen : C.Enabled p a := by
      constructor
      · intro l _ q hq tx' htx'
        rw [hnone q hq] at htx'
        cases htx'
      · cases a <;> try trivial
        intro q hq tx' htx'
        rw [hnone q hq] at htx'
        cases htx'
    have hstep : Reachable prog s₀ (C.perform p req a k) :=
      h.tail (Step.act C p ⟨req, tx, .act a k⟩ a k hp rfl hen fun _ => trivial)
    have hproc : (C.perform p req a k).procs p =
        some ⟨req, (a.step p (C.conn p)).2.tx, k (a.step p (C.conn p)).1⟩ := by
      simp [Config.perform, Config.setProc]
    have hrest : ∀ q, q ≠ p → (C.perform p req a k).procs q = none := by
      intro q hq
      simp [Config.perform, Config.setProc, hq, hidle q hq]
    have hrun := ih _ hstep hrest _ hproc
    rw [Config.server_perform, hconn] at hrun
    exact hrun

/-- **A request is served from start to end** on an idle server. -/
theorem reachable_run {n : Nat} {s : Server T}
    (h : Reachable prog s₀ (Config.rest n s : Config T ε ρ Req)) (req : Req) :
    Reachable prog s₀
      (Config.rest (n + 1) ((prog req).run n ⟨none, s⟩).2.server : Config T ε ρ Req) := by
  have hspawn := h.tail (Step.spawn (Config.rest n s) req)
  have hproc : ((Config.rest n s : Config T ε ρ Req).setProc n (some ⟨req, none, prog req⟩)).procs
      n = some ⟨req, none, prog req⟩ := by simp [Config.setProc]
  refine reachable_of_code hspawn hproc fun q hq => ?_
  simp [Config.setProc, Config.rest, hq]

theorem reachable_tick {n : Nat} {s : Server T}
    (h : Reachable prog s₀ (Config.rest n s : Config T ε ρ Req)) (d : Nat) :
    Reachable prog s₀
      (Config.rest n { s with clock := s.clock + d } : Config T ε ρ Req) :=
  h.tail (Step.tick _ d)

end Alone

/-! ## Sequences of requests

A sequence of requests, each of which starts when the one before has ended. Its states are
reachable, and so every invariant of the world holds in them.
-/

/-- A request that was served alone: the state before it, its reply, and the state after it. -/
structure Served (T : Type) [Schema T] (ρ Req : Type) where
  before : Server T
  req : Req
  reply : ρ
  after : Server T

/-- **Successful requests, one at a time**: each is served from start to end, and time may pass
in between. The numbers count the programs that have started. -/
inductive Serves (prog : Req → Prog T ε ρ) :
    Nat → Server T → List (Served T ρ Req) → Nat → Server T → Prop where
  | nil (n : Nat) (s : Server T) : Serves prog n s [] n s
  | wait {n n' : Nat} {s s' : Server T} {l : List (Served T ρ Req)} (d : Nat)
      (h : Serves prog n { s with clock := s.clock + d } l n' s') : Serves prog n s l n' s'
  | request {n n' : Nat} {s s' : Server T} {l : List (Served T ρ Req)} {req : Req} {reply : ρ}
      {c : Conn T} (hends : Ends n (prog req) ⟨none, s⟩ reply c)
      (h : Serves prog (n + 1) c.server l n' s') :
      Serves prog n s (⟨s, req, reply, c.server⟩ :: l) n' s'

/-- **Every request of a sequence starts in a reachable state**, is served alone, and the sequence
ends in a reachable state. -/
theorem Serves.reachable {prog : Req → Prog T ε ρ} {s₀ : Server T} {n n' : Nat} {s s' : Server T}
    {l : List (Served T ρ Req)} (h : Serves prog n s l n' s')
    (hr : Reachable prog s₀ (Config.rest n s : Config T ε ρ Req)) :
    (∀ e ∈ l, ∃ i c, Reachable prog s₀ (Config.rest i e.before : Config T ε ρ Req) ∧
      Ends i (prog e.req) ⟨none, e.before⟩ e.reply c ∧ c.server = e.after) ∧
    Reachable prog s₀ (Config.rest n' s' : Config T ε ρ Req) := by
  induction h with
  | nil n s => exact ⟨by simp, hr⟩
  | wait d h ih => exact ih (reachable_tick hr d)
  | @request n n' s s' l req reply c hends h ih =>
    have hrun : ((prog req).run n ⟨none, s⟩).2.server = c.server := by
      have he : (prog req).run n ⟨none, s⟩ = (.ok reply, c) := hends
      rw [he]
    have hnext := reachable_run hr req
    rw [hrun] at hnext
    obtain ⟨hall, hend⟩ := ih hnext
    refine ⟨fun e he => ?_, hend⟩
    rcases List.mem_cons.1 he with rfl | he
    · exact ⟨n, c, hr, hends, rfl⟩
    · exact hall e he

/-! ## Concrete runs

Installations and runs that a test or a witness can evaluate.
-/

/-- Running a program is deciding where it ends. -/
theorem ends_of_run {p : Nat} {m : Prog T ε α} {c : Conn T} {a : α}
    (h : (m.run p c).1 = .ok a) : Ends p m c a (m.run p c).2 :=
  Prod.ext h rfl

/-- The store that a list of rows makes up. -/
def Store.ofRows (rows : List (Write T)) : Store T :=
  rows.foldr (fun w s => s.set w.table w.id w.value) Store.empty

theorem Store.mem_of_get_ofRows {rows : List (Write T)} {t : T} {id : Id t} {r : Row t}
    (h : (Store.ofRows rows).get t id = some r) : ∃ w ∈ rows, w.key = ⟨t, id⟩ := by
  induction rows with
  | nil => cases h
  | cons w ws ih =>
    by_cases hk : (⟨t, id⟩ : Key T) = ⟨w.table, w.id⟩
    · exact ⟨w, List.mem_cons_self, hk.symm⟩
    · have hget : (Store.ofRows (w :: ws)).get t id = (Store.ofRows ws).get t id :=
        Store.get_set_of_key_ne _ w.value hk
      rw [hget] at h
      obtain ⟨w', hw', hkey⟩ := ih h
      exact ⟨w', List.mem_cons_of_mem _ hw', hkey⟩

/-- **An installation is well formed** if the numbers in its keys have been drawn. -/
theorem Server.wf_ofRows {rows : List (Write T)} {clock seq : Nat}
    (h : ∀ w ∈ rows, (w.key.serialNo.all (· < seq)) = true) :
    (⟨Store.ofRows rows, [], clock, seq⟩ : Server T).Wf where
  store_drawn := by
    intro t id r hr n hn
    obtain ⟨w, hw, hkey⟩ := Store.mem_of_get_ofRows hr
    have hlt := h w hw
    rw [hkey, hn] at hlt
    simpa using hlt
  log_drawn := by simp

/-- One move of a scripted run. -/
inductive Move (Req : Type) where
  | request (req : Req)
  | wait (d : Nat)

/-- The state after a scripted run that starts with `n` programs already served. -/
def play (prog : Req → Prog T ε ρ) : Nat → Server T → List (Move Req) → Server T
  | _, s, [] => s
  | n, s, .request req :: moves =>
    play prog (n + 1) ((prog req).run n ⟨none, s⟩).2.server moves
  | n, s, .wait d :: moves => play prog n { s with clock := s.clock + d } moves

/-- **A scripted run is a run of the world.** -/
theorem reachable_play (prog : Req → Prog T ε ρ) (s₀ : Server T) (moves : List (Move Req)) :
    ∃ n, Reachable prog s₀ (Config.rest n (play prog 0 s₀ moves) : Config T ε ρ Req) := by
  have hall : ∀ n s, Reachable prog s₀ (Config.rest n s : Config T ε ρ Req) →
      ∃ n', Reachable prog s₀ (Config.rest n' (play prog n s moves) : Config T ε ρ Req) := by
    induction moves with
    | nil => exact fun n s h => ⟨n, h⟩
    | cons move moves ih =>
      intro n s h
      cases move with
      | request req => exact ih _ _ (reachable_run h req)
      | wait d => exact ih _ _ (reachable_tick h d)
  exact hall 0 s₀ .refl

end ReadCommitted
