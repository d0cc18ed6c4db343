import ArcAdmin.ReadCommitted.Sequential

/-!
# Scripts: interleaved runs that can be evaluated

A script says which connection acts next and for how many acts. Running it is a computation, and
what it computes is a run of the world: an act that would have to wait for a lock is refused.

* **`Stage`** — a configuration whose programs are given as a list;
* **`Stage.act_step`** — one act of a script is one step of the world;
* **`Stage.play_steps`** — a script that goes through is a run of the world;
* **`Stage.after`** — where a script leads.
-/

namespace ReadCommitted

open Schema (Id Row Ev serialNo clash Allowed)

variable {T : Type} [Schema T] {ε ρ Req : Type}

/-- A configuration whose programs are listed in the order they started. -/
structure Stage (T : Type) [Schema T] (ε ρ Req : Type) where
  server : Server T
  procs : List (Proc T ε ρ Req)

/-- One move of a script: a program starts, a program performs its next `n` acts (fewer if it ends
before), or time passes. -/
inductive Cue (Req : Type) where
  | start (req : Req)
  | run (p n : Nat)
  | wait (d : Nat)

namespace Stage

/-- The configuration that a stage stands for. -/
def config (S : Stage T ε ρ Req) : Config T ε ρ Req :=
  ⟨S.server, fun q => S.procs[q]?, S.procs.length⟩

@[simp] theorem server_config (S : Stage T ε ρ Req) : S.config.server = S.server := rfl

/-! ## Waiting, decided

The conditions under which an act need not wait, as functions of the listed transactions.
-/

/-- None of the locks keeps mode `m` on `k` waiting. -/
def clearOf (locks : List (Key T × LockMode)) (k : Key T) (m : LockMode) : Bool :=
  locks.all fun l => decide (l.1 ≠ k) || !m.conflicts l.2

/-- The transaction has no undecided write that stands in a unique index with `row`. -/
def undisputedBy (s : Store T) (tx : Tx T) (t : T) (row : Row t) : Bool :=
  tx.locks.all fun l =>
    if h : l.1.1 = t then
      let id : Id t := h ▸ l.1.2
      !l.2.exclusive || ((s.get t id).all fun r => !clash t r row) &&
        ((tx.view s).get t id).all fun r => !clash t r row
    else true

/-- The transaction lets connection `⟨tx, s⟩` perform the act `a`. -/
def admits (s : Server T) (tx : Option (Tx T)) (a : Act T) (other : Tx T) : Bool :=
  ((a.wants ⟨tx, s⟩).all fun l => clearOf other.locks l.1 l.2) &&
    match a with
    | .insert t _ row _ _ _ => undisputedBy s.store other t (row s.seq)
    | _ => true

/-- Every other connection lets `p` perform the act `a`. -/
def enabled (S : Stage T ε ρ Req) (p : Nat) (tx : Option (Tx T)) (a : Act T) : Bool :=
  S.procs.zipIdx.all fun e => e.2 == p || e.1.tx.all (admits S.server tx a)

/-! ## Playing

A script is played act by act. If one of them had to wait, there is no result: a script has to
tell an interleaving that the server would let happen.
-/

/-- The next act of program `p`; `none` if it has to wait. A program that has ended stays as it
is. -/
def act (S : Stage T ε ρ Req) (p : Nat) : Option (Stage T ε ρ Req) :=
  match S.procs[p]? with
  | some ⟨req, tx, .act a k⟩ =>
    if S.enabled p tx a then
      let r := a.step p ⟨tx, S.server⟩
      some ⟨r.2.server, S.procs.set p ⟨req, r.2.tx, k r.1⟩⟩
    else none
  | _ => some S

/-- The next `n` acts of program `p`. -/
def acts (p : Nat) : Nat → Stage T ε ρ Req → Option (Stage T ε ρ Req)
  | 0, S => some S
  | n + 1, S => (S.act p).bind (acts p n)

/-- The stage that a script ends on, if nobody ever has to wait. -/
def play (prog : Req → Prog T ε ρ) : List (Cue Req) → Stage T ε ρ Req → Option (Stage T ε ρ Req)
  | [], S => some S
  | .start req :: cues, S => play prog cues ⟨S.server, S.procs ++ [⟨req, none, prog req⟩]⟩
  | .run p n :: cues, S => (S.acts p n).bind (play prog cues)
  | .wait d :: cues, S =>
    play prog cues ⟨{ S.server with clock := S.server.clock + d }, S.procs⟩

/-! ## Scripts are runs

Each act of a script is a step of the world, or none at all if the program has ended.
-/

variable {S S' : Stage T ε ρ Req} {p : Nat}

theorem clear_of_clearOf {locks : List (Key T × LockMode)} {k : Key T} {m : LockMode}
    (h : clearOf locks k m = true) : ∀ l ∈ locks, l.1 = k → m.conflicts l.2 = false := by
  intro l hl hk
  have hall := List.all_eq_true.1 h l hl
  simpa [hk] using hall

theorem undisputed_of_undisputedBy {s : Store T} {tx : Tx T} {t : T} {row : Row t}
    (h : undisputedBy s tx t row = true) {id : Id t} (ho : tx.Owns ⟨t, id⟩) {r : Row t}
    (hr : s.get t id = some r ∨ (tx.view s).get t id = some r) : clash t r row = false := by
  obtain ⟨m, hm, hmem⟩ := ho
  have hall := List.all_eq_true.1 h _ hmem
  simp only [hm, Bool.not_true, Bool.false_or, dite_true, Bool.and_eq_true] at hall
  rcases hr with hr | hr
  · simpa [hr] using hall.1
  · simpa [hr] using hall.2

/-- **An act that the check lets through need not wait.** -/
theorem enabled_config {req : Req} {tx : Option (Tx T)} {code : Prog T ε ρ} {a : Act T}
    (hp : S.procs[p]? = some ⟨req, tx, code⟩) (h : S.enabled p tx a = true) :
    S.config.Enabled p a := by
  have hconn : S.config.conn p = ⟨tx, S.server⟩ := by
    simp [Config.conn, Config.tx, config, hp]
  have hother : ∀ q, q ≠ p → ∀ txq, S.config.tx q = some txq →
      admits S.server tx a txq = true := by
    intro q hq txq htxq
    obtain ⟨pr, hpr, htx⟩ := Option.bind_eq_some_iff.1 htxq
    have hmem : (pr, q) ∈ S.procs.zipIdx := by
      rw [List.mem_zipIdx_iff_getElem?]
      exact hpr
    have hall := List.all_eq_true.1 h _ hmem
    simpa [hq, htx] using hall
  constructor
  · intro l hl q hq txq htxq
    have hadmits := (Bool.and_eq_true_iff.1 (hother q hq txq htxq)).1
    rw [hconn] at hl
    rw [hl] at hadmits
    exact clear_of_clearOf hadmits
  · cases a <;> try trivial
    intro q hq txq htxq id ho r hr
    exact undisputed_of_undisputedBy (Bool.and_eq_true_iff.1 (hother q hq txq htxq)).2 ho hr

/-- **One act of a script is at most one step of the world**, under any condition that its commits
satisfy. -/
theorem act_stepIf {prog : Req → Prog T ε ρ} {cond : Nat → Conn T → Prop}
    (hcond : ∀ req tx k, S.procs[p]? = some ⟨req, tx, .act .commit k⟩ → cond p ⟨tx, S.server⟩)
    (h : S.act p = some S') : S' = S ∨ Step prog cond S.config S'.config := by
  unfold act at h
  split at h
  · rename_i req tx a k hp
    split at h
    · rename_i hen
      cases h
      have hconn : S.config.conn p = ⟨tx, S.server⟩ := by
        simp [Config.conn, Config.tx, config, hp]
      have hlt : p < S.procs.length := (List.getElem?_eq_some_iff.1 hp).1
      have hperform : S.config.perform p req a k =
          config ⟨(a.step p ⟨tx, S.server⟩).2.server,
            S.procs.set p ⟨req, (a.step p ⟨tx, S.server⟩).2.tx, k (a.step p ⟨tx, S.server⟩).1⟩⟩ := by
        unfold Config.perform
        rw [hconn]
        simp only [Config.setProc, config, List.length_set, Config.mk.injEq, true_and, and_true]
        funext q
        by_cases hq : q = p
        · subst hq
          simp [hlt]
        · have hq' : p ≠ q := fun e => hq e.symm
          simp [hq, List.getElem?_set_ne hq']
      have hproc : S.config.procs p = some ⟨req, tx, .act a k⟩ := hp
      rw [← hperform]
      refine .inr (.act S.config p _ a k hproc rfl (enabled_config hp hen) fun ha => ?_)
      subst ha
      rw [hconn]
      exact hcond req tx k hp
    · cases h
  · cases h
    exact .inl rfl

/-- One act of a script is at most one step of the world. -/
theorem act_step {prog : Req → Prog T ε ρ} (h : S.act p = some S') :
    S' = S ∨ Step prog (fun _ _ => True) S.config S'.config :=
  act_stepIf (fun _ _ _ _ => trivial) h

theorem acts_steps {prog : Req → Prog T ε ρ} {n : Nat} (h : S.acts p n = some S') :
    Steps prog (fun _ _ => True) S.config S'.config := by
  induction n generalizing S with
  | zero =>
    cases h
    exact .refl
  | succ n ih =>
    obtain ⟨S₁, hact, hrest⟩ := Option.bind_eq_some_iff.1 h
    rcases act_step hact with rfl | hstep
    · exact ih hrest
    · exact .head hstep (ih hrest)

/-- Starting a program is one step of the world. -/
theorem start_step (prog : Req → Prog T ε ρ) (cond : Nat → Conn T → Prop) (S : Stage T ε ρ Req)
    (req : Req) :
    Step prog cond S.config (config ⟨S.server, S.procs ++ [⟨req, none, prog req⟩]⟩) := by
  have hstart : config ⟨S.server, S.procs ++ [⟨req, none, prog req⟩]⟩ =
      { S.config.setProc S.config.next (some ⟨req, none, prog req⟩) with
        next := S.config.next + 1 } := by
    simp only [Config.setProc, config, List.length_append, List.length_singleton,
      Config.mk.injEq, true_and, and_true]
    funext q
    show _ = if q = S.procs.length then _ else S.procs[q]?
    rw [List.getElem?_append]
    by_cases hq : q = S.procs.length
    · subst hq
      simp
    · by_cases hlt : q < S.procs.length
      · rw [if_pos hlt, if_neg hq]
      · have hge : 0 < q - S.procs.length := by omega
        have hle : S.procs.length ≤ q := by omega
        rw [if_neg hlt, if_neg hq, List.getElem?_eq_none (Nat.succ_le_of_lt hge),
          List.getElem?_eq_none hle]
  rw [hstart]
  exact .spawn S.config req

/-- **A script that goes through is a run of the world.** -/
theorem play_steps {prog : Req → Prog T ε ρ} {cues : List (Cue Req)}
    (h : play prog cues S = some S') : Steps prog (fun _ _ => True) S.config S'.config := by
  induction cues generalizing S with
  | nil =>
    cases h
    exact .refl
  | cons cue cues ih =>
    cases cue with
    | start req => exact .head (start_step prog _ S req) (ih h)
    | run p n =>
      obtain ⟨S₁, hacts, hrest⟩ := Option.bind_eq_some_iff.1 h
      exact (acts_steps hacts).trans (ih hrest)
    | wait d => exact .head (.tick S.config d) (ih h)

/-- **A script from the idle server reaches what it ends on.** -/
theorem reachable_of_play {prog : Req → Prog T ε ρ} {s₀ : Server T} {cues : List (Cue Req)}
    (h : play prog cues ⟨s₀, []⟩ = some S') : Reachable prog s₀ S'.config :=
  play_steps h

/-- The stage that a script leads to, or the idle server if somebody has to wait. -/
def after (prog : Req → Prog T ε ρ) (s₀ : Server T) (cues : List (Cue Req)) : Stage T ε ρ Req :=
  (play prog cues ⟨s₀, []⟩).getD ⟨s₀, []⟩

theorem reachable_after (prog : Req → Prog T ε ρ) (s₀ : Server T) (cues : List (Cue Req)) :
    Reachable prog s₀ (after prog s₀ cues).config := by
  unfold after
  cases h : play prog cues ⟨s₀, []⟩ with
  | none => exact .refl
  | some S => exact reachable_of_play h

/-- The stage that a script leads to from here, or this one if somebody has to wait. -/
def resume (prog : Req → Prog T ε ρ) (S : Stage T ε ρ Req) (cues : List (Cue Req)) :
    Stage T ε ρ Req := (play prog cues S).getD S

theorem steps_resume (prog : Req → Prog T ε ρ) (S : Stage T ε ρ Req) (cues : List (Cue Req)) :
    Steps prog (fun _ _ => True) S.config (S.resume prog cues).config := by
  unfold resume
  cases h : play prog cues S with
  | none => exact .refl
  | some S' => exact play_steps h

/-- The stage after one more act of program `p`. -/
def next (S : Stage T ε ρ Req) (p : Nat) : Stage T ε ρ Req := (S.act p).getD S

/-- **One more act that leaves something behind is one step of the world.** -/
theorem step_next (prog : Req → Prog T ε ρ) (S : Stage T ε ρ Req) (p : Nat)
    (hne : S.next p ≠ S) : Step prog (fun _ _ => True) S.config (S.next p).config := by
  unfold next at hne ⊢
  cases h : S.act p with
  | none =>
    rw [h] at hne
    exact absurd rfl hne
  | some S' =>
    rw [h] at hne
    exact (act_step h).resolve_left hne

/-! ## Scripts whose commits satisfy a condition

The same for runs in which every commit satisfies a condition. The condition is decided at each
commit of the script, so a script that goes through is a run that meets it.
-/

section Condition

variable (cond : Nat → Conn T → Prop) [∀ p c, Decidable (cond p c)]

/-- The next act of program `p`; `none` if it has to wait, or is a commit against the condition. -/
def actIf (S : Stage T ε ρ Req) (p : Nat) : Option (Stage T ε ρ Req) :=
  match S.procs[p]? with
  | some ⟨_, tx, .act .commit _⟩ => if cond p ⟨tx, S.server⟩ then S.act p else none
  | _ => S.act p

/-- The next `n` acts of program `p`, under the condition. -/
def actsIf (p : Nat) : Nat → Stage T ε ρ Req → Option (Stage T ε ρ Req)
  | 0, S => some S
  | n + 1, S => (S.actIf cond p).bind (actsIf p n)

/-- The stage that a script ends on, if nobody ever has to wait or commits against the
condition. -/
def playIf (prog : Req → Prog T ε ρ) :
    List (Cue Req) → Stage T ε ρ Req → Option (Stage T ε ρ Req)
  | [], S => some S
  | .start req :: cues, S => playIf prog cues ⟨S.server, S.procs ++ [⟨req, none, prog req⟩]⟩
  | .run p n :: cues, S => (S.actsIf cond p n).bind (playIf prog cues)
  | .wait d :: cues, S =>
    playIf prog cues ⟨{ S.server with clock := S.server.clock + d }, S.procs⟩

variable {cond}

theorem actIf_step {prog : Req → Prog T ε ρ} (h : S.actIf cond p = some S') :
    S' = S ∨ Step prog cond S.config S'.config := by
  unfold actIf at h
  split at h
  · rename_i req tx k hp
    split at h
    · rename_i hcond
      refine act_stepIf (fun req' tx' k' hp' => ?_) h
      rw [hp] at hp'
      cases hp'
      exact hcond
    · cases h
  · rename_i hother
    exact act_stepIf (fun req tx k hp => absurd hp (hother req tx k)) h

theorem actsIf_steps {prog : Req → Prog T ε ρ} {n : Nat} (h : S.actsIf cond p n = some S') :
    Steps prog cond S.config S'.config := by
  induction n generalizing S with
  | zero =>
    cases h
    exact .refl
  | succ n ih =>
    obtain ⟨S₁, hact, hrest⟩ := Option.bind_eq_some_iff.1 h
    rcases actIf_step hact with rfl | hstep
    · exact ih hrest
    · exact .head hstep (ih hrest)

/-- **A script that goes through under the condition is a restricted run of the world.** -/
theorem playIf_steps {prog : Req → Prog T ε ρ} {cues : List (Cue Req)}
    (h : playIf cond prog cues S = some S') : Steps prog cond S.config S'.config := by
  induction cues generalizing S with
  | nil =>
    cases h
    exact .refl
  | cons cue cues ih =>
    cases cue with
    | start req => exact .head (start_step prog _ S req) (ih h)
    | run p n =>
      obtain ⟨S₁, hacts, hrest⟩ := Option.bind_eq_some_iff.1 h
      exact (actsIf_steps hacts).trans (ih hrest)
    | wait d => exact .head (.tick S.config d) (ih h)

variable (cond)

/-- The stage that a script leads to, or the idle server if somebody has to wait or commits against
the condition. -/
def afterIf (prog : Req → Prog T ε ρ) (s₀ : Server T) (cues : List (Cue Req)) : Stage T ε ρ Req :=
  (playIf cond prog cues ⟨s₀, []⟩).getD ⟨s₀, []⟩

/-- The same from here. -/
def resumeIf (prog : Req → Prog T ε ρ) (S : Stage T ε ρ Req) (cues : List (Cue Req)) :
    Stage T ε ρ Req := (playIf cond prog cues S).getD S

theorem steps_resumeIf (prog : Req → Prog T ε ρ) (S : Stage T ε ρ Req) (cues : List (Cue Req)) :
    Steps prog cond S.config (S.resumeIf cond prog cues).config := by
  unfold resumeIf
  cases h : playIf cond prog cues S with
  | none => exact .refl
  | some S' => exact playIf_steps h

/-- The stage after one more act of program `p`, if that is no commit against the condition. -/
def nextIf (S : Stage T ε ρ Req) (p : Nat) : Stage T ε ρ Req := (S.actIf cond p).getD S

theorem step_nextIf (prog : Req → Prog T ε ρ) (S : Stage T ε ρ Req) (p : Nat)
    (hne : S.nextIf cond p ≠ S) : Step prog cond S.config (S.nextIf cond p).config := by
  unfold nextIf at hne ⊢
  cases h : S.actIf cond p with
  | none =>
    rw [h] at hne
    exact absurd rfl hne
  | some S' =>
    rw [h] at hne
    exact (actIf_step h).resolve_left hne

theorem reachable_afterIf (prog : Req → Prog T ε ρ) (s₀ : Server T) (cues : List (Cue Req)) :
    ReachableIf prog cond s₀ (afterIf cond prog s₀ cues).config := by
  unfold afterIf
  cases h : playIf cond prog cues ⟨s₀, []⟩ with
  | none => exact .refl
  | some S => exact playIf_steps h

end Condition

end Stage

end ReadCommitted
