import ArcAdmin.Proofs.Authentication
import ArcAdmin.Proofs.ChallengeCourse
import ArcAdmin.ReadCommitted.Script
import ArcAdmin.Sample

/-!
# Challenges and the sessions that they open

A request that records an answer has locked the challenge before, while it was open and had not
expired, and holds the lock until it commits: so the events of a challenge form one course, whatever
else happens at the same time. Whoever has committed the right answer may then open one session.

* **`ChallengesKept`** — what every commit keeps of the challenges and of the sessions opened for
  them;
* **`Held`**, **`Spent`**, **`Ticket`** — a program that has locked a challenge, answered it, and may
  open a session for it;
* **`challenge_course`**, **`session_earned`** — the main theorems, over all interleavings of all
  requests.
-/

namespace ArcAdmin

open ReadCommitted SessionAuth
open Prog.All

/-! ## Sessions that an answer opens

A session says for which challenge it was opened and with which factor. The journal keeps this
when the session is removed.
-/

/-- A session that was opened for an answered challenge. -/
structure SessionOpening where
  challenge : Nat
  factor : Factor
  userId : Nat
deriving DecidableEq, Repr

/-- The session that an event opens for a challenge. -/
def Event.opening : Event → Option SessionOpening
  | .sessionCreated userId completed =>
    completed.map fun done => ⟨done.1, done.2, userId⟩
  | _ => none

/-- Only events about sessions open one. -/
def opening (key : Option (Key Table)) (ev : Event) : Option SessionOpening :=
  if key.any fun k => decide (k.1 = Table.authSessions) then ev.opening else none

/-- The sessions that a transaction opens for challenges. -/
def openings (notes : List (Option (Key Table) × Event)) : List SessionOpening :=
  notes.filterMap fun n => opening n.1 n.2

/-- The sessions that have been opened for challenges. -/
def sessionOpenings (log : List (Entry Table)) : List SessionOpening :=
  log.filterMap fun e => opening e.key e.ev

theorem opened_append (log : List (Entry Table)) (p : Nat)
    (notes : List (Option (Key Table) × Event)) :
    sessionOpenings (log ++ notes.map fun n => ⟨p, n.1, n.2⟩) = sessionOpenings log ++ openings notes := by
  unfold sessionOpenings openings
  rw [List.filterMap_append, List.filterMap_map]
  rfl

theorem openings_append (notes more : List (Option (Key Table) × Event)) :
    openings (notes ++ more) = openings notes ++ openings more :=
  List.filterMap_append

/-- An event of its own opens nothing. -/
theorem openings_noted (c : Conn Table) (e : Event) :
    openings (c.noted e).notes = openings c.notes := by
  obtain ⟨otx, s⟩ := c
  cases otx with
  | none => rfl
  | some tx =>
    show openings (tx.notes ++ [(none, e)]) = openings tx.notes
    rw [openings_append]
    exact List.append_nil _

/-- Tokens are never drawn twice, and their hashes do not collide. -/
def TokensDiffer (env : External) : Prop :=
  Function.Injective fun n => env.tokenHash (env.randomToken n 0)

/-- The challenge that a session was opened for has been answered, with that factor and by that
user. -/
def FactorAnswered (env : External) (log : List (Entry Table)) (o : SessionOpening) : Prop :=
  ∃ userId at', .challengeSucceeded userId at' o.factor ∈
      history log ⟨.authMfaChallenges, o.challenge⟩ ∧ (TokensDiffer env → userId = o.userId)

/-- It was this program that committed the answer. -/
def AnsweredBy (env : External) (log : List (Entry Table)) (p : Nat) (o : SessionOpening) : Prop :=
  ∃ userId at', Logged log p ⟨.authMfaChallenges, o.challenge⟩
      (.challengeSucceeded userId at' o.factor) ∧ (TokensDiffer env → userId = o.userId)

theorem AnsweredBy.answered {env : External} {log : List (Entry Table)} {p : Nat} {o : SessionOpening}
    (h : AnsweredBy env log p o) : FactorAnswered env log o := by
  obtain ⟨userId, at', hlog, huser⟩ := h
  exact ⟨userId, at', Logged.mem_history hlog, huser⟩

/-! ## The contract

What is kept by every commit, and what a commit owes for that: it answers a challenge in a course
that goes on, and it opens sessions only for answers that its own program has committed.
-/

/-- **What is kept of the challenges**: their histories are courses, a session is opened only for an
answered challenge, and only one. -/
structure ChallengesKept (env : External) (s : Server Table) : Prop where
  law : (⟨none, s⟩ : Conn Table).Obeys .authMfaChallenges (challengeLaw env)
  answered : ∀ o ∈ sessionOpenings s.log, FactorAnswered env s.log o
  once : ((sessionOpenings s.log).map SessionOpening.challenge).Nodup

/-- Whoever opens a session for a challenge has answered it. -/
def challengeContract (env : External) : Contract Table where
  base _ c := c.Wf
  inv s := ChallengesKept env s
  guar p c := ∀ o ∈ openings c.notes, AnsweredBy env c.server.log p o

/-- A transaction that opens no session for a challenge. -/
def Quiet (env : External) (c : Conn Table) : Prop :=
  c.Obeys .authMfaChallenges (challengeLaw env) ∧ openings c.notes = []

section Contract

variable {env : External} {p : Nat} {c c' : Conn Table}

theorem challengeContract_wf : (challengeContract env).WellFormed := fun _ _ h => h

/-- **A commit keeps the challenges**, if the sessions that it opens are for challenges that are
answered, and no two for one. -/
theorem ChallengesKept.commit {s : Server Table} {tx : Tx Table} (h : ChallengesKept env s)
    (hlaw : (⟨some tx, s⟩ : Conn Table).Obeys .authMfaChallenges (challengeLaw env))
    (hanswered : ∀ o ∈ openings tx.notes, FactorAnswered env s.log o)
    (hnodup : ((openings tx.notes).map SessionOpening.challenge).Nodup)
    (hnew : ∀ o ∈ openings tx.notes, ∀ o' ∈ sessionOpenings s.log, o'.challenge ≠ o.challenge) :
    ChallengesKept env (s.commit p tx) := by
  have hopened : sessionOpenings (s.commit p tx).log = sessionOpenings s.log ++ openings tx.notes :=
    opened_append s.log p tx.notes
  -- answers stay in the histories
  have hkept : ∀ o, FactorAnswered env s.log o → FactorAnswered env (s.commit p tx).log o := by
    rintro o ⟨userId, at', hmem, huser⟩
    refine ⟨userId, at', ?_, huser⟩
    rw [history_commit]
    exact List.mem_append_left _ hmem
  refine ⟨hlaw.commit p, fun o ho => ?_, ?_⟩
  · rw [hopened] at ho
    rcases List.mem_append.1 ho with hold | hnote
    · exact hkept o (h.answered o hold)
    · exact hkept o (hanswered o hnote)
  · rw [hopened, List.map_append]
    refine List.nodup_append.2 ⟨h.once, hnodup, ?_⟩
    intro ch hch ch' hch' heq
    obtain ⟨o', ho', rfl⟩ := List.mem_map.1 hch
    obtain ⟨o, ho, rfl⟩ := List.mem_map.1 hch'
    exact hnew o ho o' ho' heq

theorem Quiet.guar (hb : ((challengeContract env).judge p).base c) (h : Quiet env c) :
    ((challengeContract env).judge p).guar c := by
  refine ⟨fun o ho => ?_, fun tx htx => ?_⟩
  · rw [h.2] at ho
    cases ho
  · obtain ⟨otx, s⟩ := c
    cases htx
    have hnone : openings tx.notes = [] := h.2
    refine hb.2.commit h.1 (fun o ho => ?_) ?_ fun o ho => ?_
    · rw [hnone] at ho
      cases ho
    · rw [hnone]
      exact List.nodup_nil
    · rw [hnone] at ho
      cases ho

theorem Quiet.of_clean (hkept : ChallengesKept env c.server) (h : c.Clean) : Quiet env c := by
  refine ⟨h.obeys hkept.law, ?_⟩
  rw [h.notes]
  rfl

theorem stable_obeys : ((challengeContract env).judge p).Stable fun c =>
    c.Obeys .authMfaChallenges (challengeLaw env) :=
  fun _ _ hr hc => Conn.Obeys.interferes hr.2.2.1 challengeContract_wf.commits hr.2.2.2.2
    hr.2.2.2.1.law hc

theorem stable_notes (P : List (Option (Key Table) × Event) → Prop) :
    ((challengeContract env).judge p).Stable fun c => P c.notes := by
  intro c c' hr hc
  have htx : c'.tx = c.tx := hr.2.2.2.2.tx_eq
  show P c'.notes
  rw [Conn.notes, htx]
  exact hc

theorem stable_quiet : ((challengeContract env).judge p).Stable (Quiet env) :=
  stable_obeys.and (stable_notes fun notes => openings notes = [])

end Contract

/-! ## Changes that keep the law by themselves

Most requests never answer a challenge. Their changes keep the courses without any knowledge of
the program.
-/

/-- A challenge is issued, superseded or removed. -/
def challengeMoves (env : External) (id : Nat) :
    Option ChallengeRow → Option ChallengeRow → List Event → Prop
  | none, some new, evs => new.tokenHash = env.tokenHash (env.randomToken id 0) ∧
    new.maxAttempts = maxAttempts ∧ new.attemptCount = 0 ∧ new.consumedAt = none ∧
      ∃ successorOf, evs = [.challengeIssued new.userId new.kind new.expiresAt successorOf]
  | some old, some new, evs => old.consumedAt = none ∧ isLoginKind old.kind = true ∧
    evs = [.challengeSuperseded] ∧ ∃ now, new = { old with consumedAt := some now }
  | _, none, evs => evs = []

/-- Any change that answers no challenge, and opens no session for one. -/
def unanswered (env : External) : Change Table
  | .authMfaChallenges, id, old, new, evs => challengeMoves env id old new evs
  | .authSessions, _, _, _, evs => ∀ e ∈ evs, e.opening = none
  | _, _, _, _, _ => True

/-- Any change beside the challenges that opens no session for one. -/
def aside : Change Table
  | .authMfaChallenges, _, _, _, _ => False
  | .authSessions, _, _, _, evs => ∀ e ∈ evs, e.opening = none
  | _, _, _, _, _ => True

section Changes

variable {env : External} {p : Nat} {c c' : Conn Table}

theorem aside_unanswered {t : Table} {id : t.Id} {old new : Option t.Row} {evs : List Event}
    (h : aside t id old new evs) : unanswered env t id old new evs := by
  cases t <;> first | exact h | cases h

/-- Neither condition allows more openings than the other: none. -/
theorem opening_of_unanswered {k : Key Table} {old new : Option k.1.Row} {evs : List Event}
    (h : unanswered env k.1 k.2 old new evs) {e : Event} (he : e ∈ evs) :
    opening (some k) e = none := by
  obtain ⟨t, id⟩ := k
  cases t with
  | authSessions => exact h e he
  | _ => rfl

theorem unanswered_keeps : Keeps (unanswered env) .authMfaChallenges (challengeLaw env) := by
  intro id old new evs past hchange hfresh hlaw
  have hmoves : challengeMoves env id old new evs := hchange
  cases old with
  | none =>
    have hpast : past = [] := hfresh rfl rfl
    cases new with
    | none =>
      have hevs : evs = [] := hmoves
      rw [hevs, List.append_nil]
      exact hlaw
    | some new =>
      obtain ⟨htoken, hmax, hcount, hopen, successorOf, rfl⟩ := hmoves
      rw [hpast]
      exact challengeLaw_issued htoken hmax hcount hopen
  | some old =>
    cases new with
    | none =>
      have hevs : evs = [] := hmoves
      rw [hevs, List.append_nil]
      exact hlaw.removed
    | some new =>
      obtain ⟨hopen, hkind, rfl, now, rfl⟩ := hmoves
      exact hlaw.ended hopen .superseded (by decide) (fun n hn => ⟨hn, hkind⟩) now

theorem frozen_aside : Frozen aside .authMfaChallenges := fun _ _ _ _ h => h

theorem free_aside {t : Table} (hc : t ≠ .authMfaChallenges) (hs : t ≠ .authSessions) :
    Free aside t := by
  intro id old new evs
  cases t with
  | authMfaChallenges => exact absurd rfl hc
  | authSessions => exact absurd rfl hs
  | _ => trivial

theorem ordinary_aside : Ordinary aside where
  auditLogs := free_aside (by decide) (by decide)
  loginAttempts := free_aside (by decide) (by decide)
  settings _ _ _ := trivial
  reauthentications _ _ _ _ := trivial
  passkeys _ _ _ := trivial
  stepUpTokens := free_aside (by decide) (by decide)
  moduleUnlocks := free_aside (by decide) (by decide)
  sessions _ _ _ _ he := by cases he
  users _ _ _ := trivial
  passwords _ _ _ := trivial
  userRoles := (free_aside (by decide) (by decide)).edits
  rolePermissions := (free_aside (by decide) (by decide)).edits

/-- One act within `aside` or `unanswered` opens nothing. -/
theorem openings_made (hm : Made (unanswered env) c c') :
    openings c'.notes = openings c.notes := by
  obtain ⟨ns, hns, hall⟩ := hm.notes
  have hnone : openings ns = [] := by
    unfold openings
    rw [List.filterMap_eq_nil_iff]
    intro n hn
    obtain ⟨k, hk, old, new, evs, hchange, he⟩ := hall n hn
    rw [hk]
    exact opening_of_unanswered hchange he
  rw [hns, openings_append, hnone, List.append_nil]

/-- **Acts that answer no challenge** leave a transaction quiet. -/
theorem Quiet.within {a : Act Table} (ha : a.Within (unanswered env)) (hwf : c.Wf)
    (h : Quiet env c) : Quiet env (a.step p c).2 := by
  have hm := ha.made p c
  exact ⟨hm.obeys unanswered_keeps hwf h.1, (openings_made hm).trans h.2⟩

theorem Quiet.noted (h : Quiet env c) (e : Event) : Quiet env (c.noted e) :=
  ⟨h.1.noted e, (openings_noted c e).trans h.2⟩

end Changes

/-! ## What a program remembers

Between the transaction that answers a challenge and the one that opens the session, the program
holds nothing but what it knows of the journal. That nobody else uses its answer follows from the
number in the entry.
-/

/-- A fact about the journal that the program's own commits keep, if they open no session for a
challenge. -/
def Lasting (g : List (Entry Table) → Prop) : Prop :=
  ∀ log p notes, openings notes = [] → g log →
    g (log ++ notes.map fun n : Option (Key Table) × Event => ⟨p, n.1, n.2⟩)

/-- The user that the challenge was issued to. -/
def IssuedTo (id userId : Nat) (log : List (Entry Table)) : Prop :=
  ∃ kind expiresAt successorOf, .challengeIssued userId kind expiresAt successorOf ∈
    history log ⟨.authMfaChallenges, id⟩

/-- **A ticket**: the program has answered the challenge, and no session has been opened for it
yet. -/
def Ticket (env : External) (p : Nat) (o : SessionOpening) (log : List (Entry Table)) : Prop :=
  AnsweredBy env log p o ∧ ∀ o' ∈ sessionOpenings log, o'.challenge ≠ o.challenge

/-- A session that needs a ticket has one. -/
def Entitled (env : External) (p : Nat) (needed : Option SessionOpening) (log : List (Entry Table)) :
    Prop :=
  ∀ o, needed = some o → Ticket env p o log

section Facts

variable {env : External} {p : Nat}

theorem lasting_true : Lasting fun _ => True := fun _ _ _ _ _ => trivial

theorem lasting_issuedTo (id userId : Nat) : Lasting (IssuedTo id userId) := by
  rintro log p notes - ⟨kind, expiresAt, successorOf, hmem⟩
  obtain ⟨e, he, hkey⟩ := mem_history.1 hmem
  exact ⟨kind, expiresAt, successorOf, mem_history.2 ⟨e, List.mem_append_left _ he, hkey⟩⟩

theorem lasting_ticket (o : SessionOpening) : Lasting (Ticket env p o) := by
  rintro log q notes hnone ⟨⟨userId, at', hlog, huser⟩, hnew⟩
  refine ⟨⟨userId, at', List.mem_append_left _ hlog, huser⟩, ?_⟩
  rw [opened_append, hnone, List.append_nil]
  exact hnew

theorem lasting_entitled (needed : Option SessionOpening) : Lasting (Entitled env p needed) :=
  fun log q notes hnone h o ho => lasting_ticket o log q notes hnone (h o ho)

theorem stable_true : ((challengeContract env).judge p).Stable fun _ => True :=
  fun _ _ _ _ => trivial

theorem stable_issuedTo (id userId : Nat) : ((challengeContract env).judge p).Stable
    fun c => IssuedTo id userId c.server.log := by
  rintro c c' hr ⟨kind, expiresAt, successorOf, hmem⟩
  obtain ⟨e, he, hkey⟩ := mem_history.1 hmem
  exact ⟨kind, expiresAt, successorOf, mem_history.2 ⟨e, hr.2.2.2.2.log_subset he, hkey⟩⟩

/-- **A ticket cannot be used by another program**: who opens a session for a challenge has answered
it, and a challenge is answered once. -/
theorem stable_ticket (o : SessionOpening) : ((challengeContract env).judge p).Stable
    fun c => Ticket env p o c.server.log := by
  intro c c' hr h
  obtain ⟨⟨userId, at', hlog, huser⟩, hnew⟩ := h
  have hkept : ChallengesKept env c.server := hr.2.1
  refine ⟨⟨userId, at', hr.2.2.2.2.log_subset hlog, huser⟩, ?_⟩
  obtain ⟨otx, s⟩ := c
  cases hr.2.2.2.2 with
  | tick d => exact hnew
  | draw d => exact hnew
  | commit q tx hq hcompat hcommits hcond =>
    intro o' ho'
    have ho : o' ∈ sessionOpenings s.log ++ openings tx.notes := by
      rw [← opened_append s.log q tx.notes]
      exact ho'
    rcases List.mem_append.1 ho with hold | hnote
    · exact hnew o' hold
    · intro heq
      obtain ⟨userId', at'', hlog', _⟩ := hcommits.2 o' hnote
      rw [heq] at hlog'
      have hone : ((history s.log ⟨.authMfaChallenges, o.challenge⟩).filter
          Event.answers).length ≤ 1 := by
        have hlaw := hkept.law o.challenge
        rw [Conn.history_none] at hlaw
        exact hlaw.answers_le
      exact hq (Logged.unique hone hlog' hlog rfl rfl).1

theorem stable_entitled (needed : Option SessionOpening) : ((challengeContract env).judge p).Stable
    fun c => Entitled env p needed c.server.log :=
  fun c c' hr h o ho => stable_ticket o c c' hr (h o ho)

end Facts

/-! ## Programs that answer nothing

Whole programs of the kind above keep the contract, whatever they remember.
-/

section Walk

variable {env : External} {config : AuthSessionConfig} {p : Nat} {α : Type} {m : Db α}
  {g : List (Entry Table) → Prop}

/-- The program has recorded nothing about challenges, and remembers `g`. -/
def Idle (env : External) (g : List (Entry Table) → Prop) (c : Conn Table) : Prop :=
  Quiet env c ∧ g c.server.log

/-- What the walks below rest on. -/
structure Kept (env : External) (p : Nat) (g : List (Entry Table) → Prop) : Prop where
  stable : ((challengeContract env).judge p).Stable fun c => g c.server.log
  lasting : Lasting g

theorem kept_true : Kept env p fun _ => True := ⟨stable_true, lasting_true⟩

theorem kept_issuedTo (id userId : Nat) : Kept env p (IssuedTo id userId) :=
  ⟨stable_issuedTo id userId, lasting_issuedTo id userId⟩

theorem kept_entitled (needed : Option SessionOpening) : Kept env p (Entitled env p needed) :=
  ⟨stable_entitled needed, lasting_entitled needed⟩

theorem Kept.and {g' : List (Entry Table) → Prop} (hg : Kept env p g) (hg' : Kept env p g') :
    Kept env p fun log => g log ∧ g' log :=
  ⟨hg.stable.and hg'.stable, fun log q notes hnone h =>
    ⟨hg.lasting log q notes hnone h.1, hg'.lasting log q notes hnone h.2⟩⟩

theorem Kept.idle (hg : Kept env p g) : ((challengeContract env).judge p).Stable (Idle env g) :=
  stable_quiet.and hg.stable

/-- An act other than `COMMIT` leaves the journal as it is. -/
theorem log_within {φ : Change Table} {a : Act Table} (ha : a.Within φ) (c : Conn Table) :
    (a.step p c).2.server.log = c.server.log := (ha.framed p c).log

/-- **Programs that answer no challenge and open no session for one.** -/
theorem Kept.walk (hg : Kept env p g) (hm : m.All (Act.Speaks (unanswered env))) :
    Triple ((challengeContract env).judge p) p (Idle env g) m fun _ => Idle env g := by
  refine Triple.of_all hg.idle (fun a ha c hb hc => ?_) hm
  obtain ⟨hquiet, hlog⟩ := hc
  refine ⟨fun _ => hquiet.guar hb, ?_⟩
  rcases ha with hs | ⟨e, -, rfl⟩
  · rcases hs.cases with rfl | rfl | rfl | hw
    · exact ⟨Quiet.of_clean hb.2 (.inr ⟨_, rfl⟩), hlog⟩
    · obtain ⟨otx, s⟩ := c
      cases otx with
      | none => exact ⟨hquiet, hlog⟩
      | some tx =>
        have hkept : ChallengesKept env (s.commit p tx) := (hquiet.guar hb).2 tx rfl
        exact ⟨Quiet.of_clean hkept (.inl rfl), hg.lasting s.log p tx.notes hquiet.2 hlog⟩
    · exact ⟨Quiet.of_clean hb.2 (.inl rfl), hlog⟩
    · refine ⟨hquiet.within hw hb.1, ?_⟩
      rw [log_within hw]
      exact hlog
  · rw [Act.step_note]
    exact ⟨hquiet.noted e, hlog⟩

theorem Kept.steps (hg : Kept env p g) (hm : m.All (Act.Steps (unanswered env))) :
    Triple ((challengeContract env).judge p) p (Idle env g) m fun _ => Idle env g :=
  hg.walk (hm.mono fun _ ha => .inl ha)

/-- Programs that do nothing but what every request may do. -/
theorem Kept.beside (hg : Kept env p g) (hm : m.All (Act.Steps aside)) :
    Triple ((challengeContract env).judge p) p (Idle env g) m fun _ => Idle env g :=
  hg.steps (hm.mono fun _ ha => ha.mono fun _ _ _ _ _ h => aside_unanswered h)

theorem Kept.within (hg : Kept env p g) (hm : m.All (Act.Within aside)) :
    Triple ((challengeContract env).judge p) p (Idle env g) m fun _ => Idle env g :=
  hg.beside (within_steps hm)

/-- **`find_by_id`** finds the user that it is asked for. -/
theorem Kept.findById (hg : Kept env p g) (id : Nat) :
    Triple ((challengeContract env).judge p) p (Idle env g) (Repositories.Users.findById id)
      fun o c => (∀ found, o = some found → found.id = id) ∧ Idle env g c := by
  refine (hg.within poolQuery_within).bind fun s => Triple.ret hg.idle fun c _ hc => ⟨?_, hc⟩
  intro found hfound
  obtain ⟨row, _, rfl⟩ := Option.map_eq_some_iff.1 hfound
  rfl

/-- The user that a request goes on with. -/
theorem Kept.foundUser (hg : Kept env p g) {o : Option Repositories.Users.Found} {id : Nat}
    {e : ApiError} :
    Triple ((challengeContract env).judge p) p
      (fun c => (∀ found, o = some found → found.id = id) ∧ Idle env g c) (Prog.okOr o e : Db _)
      fun found c => found.id = id ∧ Idle env g c := by
  refine Triple.assuming fun hfound => (Triple.okOr hg.idle).post fun found c hc => ⟨?_, hc.2⟩
  exact hfound found hc.1

end Walk

/-! ## A locked challenge

From `challenge_for_update` to the commit nobody else can write the challenge: it is as open as it
was found, and the deadline was not over when the transaction started.
-/

open Repositories.Mfa (Challenge)

/-- A transaction that started then and has noted nothing yet. -/
def Started (start : Nat) (c : Conn Table) : Prop :=
  ∃ tx, c.tx = some tx ∧ tx.start = start ∧ tx.notes = []

/-- **The transaction has locked a challenge** of that kind, which is open and had not expired when
the transaction started. -/
structure Held (env : External) (kind : String) (challenge : Challenge) (c : Conn Table) :
    Prop where
  quiet : Quiet env c
  owns : c.Owns ⟨.authMfaChallenges, challenge.id⟩
  row : c.view.get .authMfaChallenges challenge.id = some challenge.row
  live : ∃ tx, c.tx = some tx ∧ tx.start < challenge.row.expiresAt
  isOpen : challenge.row.consumedAt = none
  kindOf : challenge.row.kind = kind

/-- The right answer to the challenge is among the events of the transaction. -/
def Spent (env : External) (challenge : Challenge) (factor : Factor) (c : Conn Table) : Prop :=
  Quiet env c ∧ ∃ at', (some ⟨.authMfaChallenges, challenge.id⟩,
    .challengeSucceeded challenge.row.userId at' factor) ∈ c.notes

section Locked

variable {env : External} {config : AuthSessionConfig} {p : Nat} {α : Type} {m : Db α}
  {g : List (Entry Table) → Prop} {kind : String} {challenge : Challenge} {factor : Factor}

theorem stable_held : ((challengeContract env).judge p).Stable (Held env kind challenge) := by
  intro c c' hr h
  have howned := Contract.stable_owned challengeContract_wf
    (fun v => v = some challenge.row) c c' hr ⟨h.owns, h.row⟩
  have hlive := Contract.stable_tx (fun otx : Option (Tx Table) =>
    ∃ tx, otx = some tx ∧ tx.start < challenge.row.expiresAt) c c' hr h.live
  exact ⟨stable_quiet c c' hr h.quiet, howned.1, howned.2, hlive, h.isOpen, h.kindOf⟩

theorem stable_spent : ((challengeContract env).judge p).Stable (Spent env challenge factor) :=
  stable_quiet.and (stable_notes fun notes => ∃ at', (some ⟨.authMfaChallenges, challenge.id⟩,
    .challengeSucceeded challenge.row.userId at' factor) ∈ notes)

/-- A locked challenge obeys the law. -/
theorem Held.law {c : Conn Table} (h : Held env kind challenge c) :
    challengeLaw env challenge.id (some challenge.row)
      (c.history ⟨.authMfaChallenges, challenge.id⟩) := by
  rw [← h.row]
  exact h.quiet.1 challenge.id

/-- Changes beside the challenges leave a locked challenge as it is. -/
theorem Held.within {a : Act Table} (ha : a.Within aside) {c : Conn Table} (hwf : c.Wf)
    (h : Held env kind challenge c) : Held env kind challenge (a.step p c).2 := by
  have hf := ha.framed p c
  have hquiet := h.quiet.within (p := p) (ha.mono fun _ _ _ _ _ h => aside_unanswered h) hwf
  refine ⟨hquiet, hf.owns h.owns, ?_, ?_, h.isOpen, h.kindOf⟩
  · rw [hf.view_get frozen_aside]
    exact h.row
  · obtain ⟨tx, htx, hstart⟩ := h.live
    rcases hf.tx with ⟨hnone, _⟩ | ⟨tx₁, tx₂, h₁, h₂, _, hsame, _⟩
    · rw [hnone] at htx
      cases htx
    · rw [h₁] at htx
      cases htx
      exact ⟨tx₂, h₂, by omega⟩

theorem Kept.held (hg : Kept env p g) : ((challengeContract env).judge p).Stable
    fun c => Held env kind challenge c ∧ g c.server.log :=
  stable_held.and hg.stable

/-- Statements between the lock and the answer. -/
theorem Kept.holding (hg : Kept env p g) (hm : m.All (Act.Within aside)) :
    Triple ((challengeContract env).judge p) p
      (fun c => Held env kind challenge c ∧ g c.server.log) m
      fun _ c => Held env kind challenge c ∧ g c.server.log := by
  refine Triple.of_all hg.held (fun a ha c hb hc => ⟨?_, hc.1.within ha hb.1, ?_⟩) hm
  · rintro rfl
    cases ha
  · rw [log_within ha]
    exact hc.2

/-- Statements between the answer and the commit. -/
theorem Kept.spending (hg : Kept env p g)
    (hm : m.All fun a => a.Within (unanswered env) ∨ ∃ e, a = .note e) :
    Triple ((challengeContract env).judge p) p
      (fun c => Spent env challenge factor c ∧ g c.server.log) m
      fun _ c => Spent env challenge factor c ∧ g c.server.log := by
  refine Triple.of_all (stable_spent.and hg.stable) (fun a ha c hb hc => ?_) hm
  obtain ⟨⟨hquiet, at', hmem⟩, hlog⟩ := hc
  rcases ha with hw | ⟨e, rfl⟩
  · refine ⟨?_, ⟨hquiet.within hw hb.1, at', ?_⟩, ?_⟩
    · rintro rfl
      cases hw
    · obtain ⟨ns, hns, _⟩ := (hw.made p c).notes
      rw [hns]
      exact List.mem_append_left _ hmem
    · rw [log_within hw]
      exact hlog
  · refine ⟨by rintro ⟨⟩, ?_⟩
    rw [Act.step_note]
    refine ⟨⟨hquiet.noted e, at', ?_⟩, hlog⟩
    obtain ⟨otx, s⟩ := c
    cases otx with
    | none => cases hmem
    | some tx => exact List.mem_append_left _ hmem

/-- Statements that every request may make. -/
theorem spends {m : Db α} (hm : m.All (Act.Within aside)) :
    m.All fun a => a.Within (unanswered env) ∨ ∃ e, a = .note e :=
  hm.mono fun _ ha => .inl (ha.mono fun _ _ _ _ _ h => aside_unanswered h)

/-- **`BEGIN`.** -/
theorem Kept.begins (hg : Kept env p g) :
    Triple ((challengeContract env).judge p) p (Idle env g) (beginTx : Db Unit)
      fun _ c => ∃ start, Idle env g c ∧ Started start c := by
  have hwalk : Triple ((challengeContract env).judge p) p (Idle env g) (beginTx : Db Unit)
      fun _ => Idle env g := hg.beside begin_steps
  refine (hwalk.and (Triple.beginTx Contract.private_judge)).conseq (fun c hc => ⟨hc, trivial⟩) ?_
  rintro _ c ⟨hidle, start, htx⟩
  exact ⟨start, hidle, _, htx, rfl, rfl⟩

/-- A challenge that a quiet transaction sees was issued to its user. -/
theorem issuedTo_of_row {c : Conn Table} {id : Nat} {row : ChallengeRow} (hquiet : Quiet env c)
    (hnotes : c.notes = []) (hrow : c.view.get .authMfaChallenges id = some row) :
    IssuedTo id row.userId c.server.log := by
  have hlaw : challengeLaw env id (c.view.get .authMfaChallenges id)
      (c.history ⟨.authMfaChallenges, id⟩) := hquiet.1 id
  have hcommitted : c.history ⟨.authMfaChallenges, id⟩ =
      history c.server.log ⟨.authMfaChallenges, id⟩ := by
    rw [Conn.history, hnotes, noted_nil, List.append_nil]
  rw [hrow, hcommitted] at hlaw
  obtain ⟨_, _, course, hof, hpast⟩ := hlaw
  refine ⟨course.kind, course.expiresAt, course.successorOf, ?_⟩
  rw [hpast, ← hof.userId]
  exact List.mem_cons_self

/-- **`challenge_for_update`**: the challenge that it returns is locked, and was issued to its
user. -/
theorem Kept.challengeForUpdate (hg : Kept env p g) (tokenHash : String) (start : Nat) :
    Triple ((challengeContract env).judge p) p (fun c => Idle env g c ∧ Started start c)
      (Repositories.Mfa.challengeForUpdate tokenHash kind) fun o c =>
        ∀ challenge, o = some challenge → challenge.row.tokenHash = tokenHash ∧
          Held env kind challenge c ∧ IssuedTo challenge.id challenge.row.userId c.server.log ∧
          g c.server.log := by
  have hidle : ((challengeContract env).judge p).Stable fun c => Idle env g c ∧ Started start c :=
    hg.idle.and (Contract.stable_tx fun otx => ∃ tx, otx = some tx ∧ tx.start = start ∧ tx.notes = [])
  have hpost : ∀ challenge : Challenge, ((challengeContract env).judge p).Stable fun c =>
      challenge.row.tokenHash = tokenHash ∧ Held env kind challenge c ∧
        IssuedTo challenge.id challenge.row.userId c.server.log ∧ g c.server.log := fun challenge =>
    (Judge.Stable.const _).and (stable_held.and ((stable_issuedTo _ _).and hg.stable))
  -- the `SELECT ... FOR UPDATE`; the snapshot in which the row is open is as old as the transaction
  have hlock : Triple ((challengeContract env).judge p) p (fun c => Idle env g c ∧ Started start c)
      (selectForUpdate Table.authMfaChallenges fun s _ (row : ChallengeRow) =>
        Repositories.Mfa.isOpen s tokenHash kind row : Db _) _ := Triple.selectForUpdate
    (σ := fun s => s.now = start) hidle
    (fun id φ => Contract.stable_owned challengeContract_wf φ)
    (fun c _ hc => by
      obtain ⟨otx, s⟩ := c
      obtain ⟨_, tx, htx, hstart, _⟩ := hc
      cases htx
      exact hstart)
    fun tx s id m hb hc => by
      obtain ⟨⟨hquiet, hlog⟩, tx', htx', hstart, hnotes⟩ := hc
      cases htx'
      exact ⟨⟨⟨hquiet.1.acquire _ m, hquiet.2⟩, hlog⟩, _, rfl, hstart, hnotes⟩
  refine Triple.bind (R := fun rows c => ∀ e ∈ rows, e.2.tokenHash = tokenHash ∧
    Held env kind ⟨e.1, e.2⟩ c ∧ IssuedTo e.1 e.2.userId c.server.log ∧ g c.server.log) ?_ fun rows => ?_
  · refine hlock.post fun rows c hc e he => ?_
    obtain ⟨⟨⟨hquiet, hlog⟩, tx, htx, hstart, hnotes⟩, hrows⟩ := hc
    -- the locked row is open in that snapshot, and the challenge was live when the transaction
    -- began
    obtain ⟨⟨s, hnow, hcond⟩, hown, hrow⟩ := hrows e he
    simp only [Repositories.Mfa.isOpen, Bool.and_eq_true, beq_iff_eq, Option.isNone_iff_eq_none,
      decide_eq_true_eq] at hcond
    obtain ⟨⟨⟨htoken, hkind⟩, hopen⟩, hlive⟩ := hcond
    have hnone : c.notes = [] := by
      rw [Conn.notes, htx]
      exact hnotes
    refine ⟨htoken, ⟨hquiet, hown, hrow, ⟨tx, htx, ?_⟩, hopen, hkind⟩,
      issuedTo_of_row hquiet hnone hrow, hlog⟩
    show tx.start < e.2.expiresAt
    omega
  · refine Triple.ret (Judge.Stable.forall fun e => ?_) fun c _ hc challenge hfound => ?_
    · exact fun c c' hr h he => hpost ⟨e.1, e.2⟩ c c' hr (h he)
    · obtain ⟨e, he, rfl⟩ := Option.map_eq_some_iff.1 hfound
      exact hc e (List.mem_of_mem_head? he)

theorem Kept.lockChallenge (hg : Kept env p g) (challengeToken : String) (start : Nat) :
    Triple ((challengeContract env).judge p) p (fun c => Idle env g c ∧ Started start c)
      (Services.Mfa.lockChallenge env challengeToken kind) fun challenge c =>
        challenge.row.tokenHash = env.tokenHash challengeToken ∧ Held env kind challenge c ∧
          IssuedTo challenge.id challenge.row.userId c.server.log ∧ g c.server.log := by
  refine (hg.challengeForUpdate _ start).bind fun o => ?_
  cases o with
  | none => exact Triple.fail
  | some challenge =>
    refine Triple.ret ?_ fun c _ hc => hc challenge rfl
    intro c c' hr h challenge' hfound
    obtain ⟨htoken, hheld, hissued, hlog⟩ := h challenge' hfound
    exact ⟨htoken, stable_held c c' hr hheld, stable_issuedTo _ _ c c' hr hissued,
      hg.stable c c' hr hlog⟩

/-- The lock, where nothing else has to be known. -/
theorem lockChallenge_held (challengeToken : String) (start : Nat) :
    Triple ((challengeContract env).judge p) p
      (fun c => Idle env (fun _ => True) c ∧ Started start c)
      (Services.Mfa.lockChallenge env challengeToken kind)
      fun challenge c => Held env kind challenge c ∧ True :=
  (kept_true.lockChallenge challengeToken start).post fun _ _ hc => ⟨hc.2.1, trivial⟩

/-- **`consume_challenge`** after the lock: the right answer is recorded in time. -/
theorem Kept.consumeChallenge (hg : Kept env p g) (hfactor : factor.kind = kind) :
    Triple ((challengeContract env).judge p) p
      (fun c => Held env kind challenge c ∧ g c.server.log)
      (Repositories.Mfa.consumeChallenge challenge.id factor)
      fun _ c => Spent env challenge factor c ∧ g c.server.log := by
  have hspent : ((challengeContract env).judge p).Stable (Spent env challenge factor) := stable_spent
  refine Triple.bind (R := fun _ c => Spent env challenge factor c ∧ g c.server.log) ?_ fun _ =>
    Triple.ret (hspent.and hg.stable) fun _ _ hc => hc
  refine Triple.updateRow challenge.id (σ := fun s => s.now < challenge.row.expiresAt) hg.held
    (fun _ => hspent.and hg.stable) (fun s i r hcond => eq_of_beq hcond) (fun c _ hc => ?_)
    fun s c hnow hb hc => ?_
  · obtain ⟨otx, s⟩ := c
    obtain ⟨tx, htx, hlive⟩ := hc.1.live
    cases htx
    exact hlive
  · obtain ⟨hheld, hlog⟩ := hc
    obtain ⟨otx, srv⟩ := c
    obtain ⟨tx, htx, hlive⟩ := hheld.live
    cases htx
    refine ⟨tx, challenge.row, rfl, hheld.row, beq_self_eq_true _, ⟨⟨?_, ?_⟩, s.now, ?_⟩, hlog⟩
    · -- the answer comes in time, to a challenge that is open
      refine hheld.quiet.1.write (d := 0) ?_
      refine hheld.law.ended hheld.isOpen (.succeeded s.now factor) (by simp) (fun n hn => ?_) s.now
      exact ⟨hn, hnow, hfactor.trans hheld.kindOf.symm⟩
    · show openings (tx.notes ++ [_]) = []
      rw [openings_append]
      exact (List.append_nil _).trans hheld.quiet.2
    · exact List.mem_append_right _ (List.mem_singleton_self _)

/-- **What a transaction answers has not been answered before.** -/
theorem Quiet.not_answered {tx : Tx Table} {s : Server Table} {id : Nat} {e e' : Event}
    (h : Quiet env ⟨some tx, s⟩) (hnow : (some ⟨.authMfaChallenges, id⟩, e) ∈ tx.notes)
    (hanswers : e.answers = true) (hbefore : e' ∈ history s.log ⟨.authMfaChallenges, id⟩) :
    e'.answers = false := by
  by_contra hne
  have hanswers' : e'.answers = true := by simpa using hne
  have hone : (((⟨some tx, s⟩ : Conn Table).history ⟨.authMfaChallenges, id⟩).filter
      Event.answers).length ≤ 1 := (h.1 id).answers_le
  rw [Conn.history_some, List.filter_append, List.length_append] at hone
  have hnoted : e ∈ ReadCommitted.noted tx.notes ⟨.authMfaChallenges, id⟩ :=
    List.mem_map.2 ⟨_, List.mem_filter.2 ⟨hnow, by simp⟩, rfl⟩
  have hfirst := List.length_pos_of_mem (List.mem_filter.2 ⟨hbefore, hanswers'⟩)
  have hsecond := List.length_pos_of_mem (List.mem_filter.2 ⟨hnoted, hanswers⟩)
  omega

/-- **`COMMIT` of an answer**: the program holds a ticket for one session. -/
theorem Kept.commitAnswer (hg : Kept env p g) {userId : Nat}
    (huser : TokensDiffer env → challenge.row.userId = userId) :
    Triple ((challengeContract env).judge p) p
      (fun c => Spent env challenge factor c ∧ g c.server.log) (commitTx : Db Unit) fun _ =>
        Idle env fun log => Entitled env p (some ⟨challenge.id, factor, userId⟩) log ∧ g log := by
  have hpost : ((challengeContract env).judge p).Stable
      (Idle env fun log => Entitled env p (some ⟨challenge.id, factor, userId⟩) log ∧ g log) :=
    stable_quiet.and ((stable_entitled _).and hg.stable)
  refine Triple.commitLogged (stable_spent.and hg.stable) hpost (fun c hb hc => hc.1.1.guar hb) ?_ ?_
  · intro tx s hb hc
    obtain ⟨⟨hquiet, at', hmem⟩, hlog⟩ := hc
    have hkept : ChallengesKept env (s.commit p tx) := (hquiet.guar hb).2 tx rfl
    refine ⟨Quiet.of_clean hkept (.inl rfl), ?_, hg.lasting s.log p tx.notes hquiet.2 hlog⟩
    intro o ho
    cases ho
    refine ⟨⟨challenge.row.userId, at', ?_, huser⟩, fun o' ho' heq => ?_⟩
    · exact List.mem_append_right _ (List.mem_map.2 ⟨_, hmem, rfl⟩)
    · -- a session opened for it before would mean a second answer
      have hopened : o' ∈ sessionOpenings s.log := by
        have hall : sessionOpenings (s.commit p tx).log = sessionOpenings s.log ++ openings tx.notes :=
          opened_append s.log p tx.notes
        have hnone : openings tx.notes = [] := hquiet.2
        rw [hall, hnone, List.append_nil] at ho'
        exact ho'
      obtain ⟨userId', at'', hbefore, _⟩ := hb.2.answered o' hopened
      rw [heq] at hbefore
      cases hquiet.not_answered hmem rfl hbefore
  · rintro c ⟨⟨_, at', hmem⟩, _⟩
    obtain ⟨otx, s⟩ := c
    cases otx with
    | none => cases hmem
    | some tx => rfl

/-- **A wrong answer** is recorded, and the request fails. -/
theorem failChallenge_recorded (text : String) (Q : α → Conn Table → Prop) :
    Triple ((challengeContract env).judge p) p (Held env kind challenge)
      (Services.Mfa.failChallenge challenge text : Db α) Q := by
  have hfailure : Triple ((challengeContract env).judge p) p (Held env kind challenge)
      ((Repositories.Mfa.recordChallengeFailureStmt challenge.id).exec : Db _)
      fun _ => Idle env fun _ => True := by
    refine Triple.updateRow challenge.id (σ := fun _ => True) stable_held
      (fun _ => kept_true.idle) (fun s i r hcond => eq_of_beq hcond) (fun _ _ _ => trivial)
      fun s c _ hb hheld => ?_
    obtain ⟨otx, srv⟩ := c
    obtain ⟨tx, htx, _⟩ := hheld.live
    cases htx
    refine ⟨tx, challenge.row, rfl, hheld.row, beq_self_eq_true _, ⟨?_, ?_⟩, trivial⟩
    · exact hheld.quiet.1.write (d := 0) (hheld.law.failed hheld.isOpen s.now)
    · show openings (tx.notes ++ [_]) = []
      rw [openings_append]
      exact (List.append_nil _).trans hheld.quiet.2
  refine (hfailure.bind fun rows => kept_true.within (.bind (all_okOr _ _) fun _ => .ret)).bind
    fun locked => ?_
  refine (kept_true.within (Repositories.AuditLogs.record_within ordinary_aside.auditLogs
    _ _ _ _ _)).bind fun _ => ?_
  exact (kept_true.beside commit_steps).bind fun _ => Triple.fail

end Locked

/-! ## Opening a session

The transaction of `create_login_session`, which uses the ticket up.
-/

/-- The session that `needed` stands for has been inserted, with its ticket at hand. -/
structure Opens (env : External) (p : Nat) (needed : Option SessionOpening) (c : Conn Table) : Prop where
  law : c.Obeys .authMfaChallenges (challengeLaw env)
  openings : ArcAdmin.openings c.notes = needed.toList
  entitled : Entitled env p needed c.server.log
  isOpen : c.tx.isSome

section Opening

variable {env : External} {config : AuthSessionConfig} {p : Nat} {α : Type} {m : Db α}
  {needed : Option SessionOpening}

theorem stable_opens : ((challengeContract env).judge p).Stable (Opens env p needed) := by
  intro c c' hr h
  have hopenings := stable_notes (fun notes => openings notes = needed.toList) c c' hr h.openings
  have hopen := Contract.stable_tx (fun otx => otx.isSome = true) c c' hr h.isOpen
  exact ⟨stable_obeys c c' hr h.law, hopenings, stable_entitled needed c c' hr h.entitled, hopen⟩

theorem opensBeside (hm : m.All (Act.Within aside)) :
    Triple ((challengeContract env).judge p) p (Opens env p needed) m
      fun _ => Opens env p needed := by
  refine Triple.of_all stable_opens (fun a ha c hb hc => ⟨?_, ?_⟩) hm
  · rintro rfl
    cases ha
  · have hw : a.Within (unanswered env) := ha.mono fun _ _ _ _ _ h => aside_unanswered h
    have hmade := hw.made p c
    refine ⟨hmade.obeys unanswered_keeps hb.1 hc.law, (openings_made hmade).trans hc.openings, ?_, ?_⟩
    · rw [log_within hw]
      exact hc.entitled
    · rw [← (hw.framed p c).isSome]
      exact hc.isOpen

/-- **The new session** is the one that the ticket is for. -/
theorem createSession_opens (needed : Option SessionOpening) (session : Repositories.AuthSessions.NewSession)
    (hneeded : needed = (Event.sessionCreated session.userId session.completed).opening) :
    Triple ((challengeContract env).judge p) p (Idle env (Entitled env p needed))
      (Repositories.AuthSessions.create session) fun _ => Opens env p needed := by
  have hg : Kept env p (Entitled env p needed) := kept_entitled needed
  refine (hg.within query_within).bind fun s => ?_
  have hinsert : Triple ((challengeContract env).judge p) p (Idle env (Entitled env p needed))
      ((Repositories.AuthSessions.createStmt s session).exec (dbError .uniqueViolation))
      fun _ => Opens env p needed := by
    refine Triple.insert hg.idle (fun _ => stable_opens) fun tx srv _ hc _ => ?_
    have hbefore : openings tx.notes = [] := hc.1.2
    refine ⟨hc.1.1.write_other (by decide), ?_, hc.2, rfl⟩
    show openings (tx.notes ++ [(some ⟨.authSessions, _⟩,
      .sessionCreated session.userId session.completed)]) = needed.toList
    rw [openings_append, hbefore, List.nil_append, hneeded]
    show (([(some ⟨.authSessions, _⟩, Event.sessionCreated session.userId session.completed)] :
      List (Option (Key Table) × Event)).filterMap fun n => opening n.1 n.2) = _
    rw [List.filterMap_cons]
    cases hopening : (Event.sessionCreated session.userId session.completed).opening <;>
      simp [opening, hopening]
  refine hinsert.bind fun id => ?_
  exact opensBeside (.bind (references_within _ _ _) fun _ => .ret)

/-- The guarantee of a transaction that opens a session: its ticket is at hand. -/
theorem Opens.guar {c : Conn Table} (hb : ((challengeContract env).judge p).base c)
    (h : Opens env p needed c) : ((challengeContract env).judge p).guar c := by
  have hticket : ∀ o ∈ ArcAdmin.openings c.notes, Ticket env p o c.server.log := by
    intro o ho
    rw [h.openings] at ho
    exact h.entitled o (by simpa using ho)
  refine ⟨fun o ho => (hticket o ho).1, fun tx htx => ?_⟩
  obtain ⟨otx, s⟩ := c
  cases htx
  refine hb.2.commit h.law (fun o ho => (hticket o ho).1.answered) ?_ fun o ho => (hticket o ho).2
  have hnotes : ArcAdmin.openings tx.notes = needed.toList := h.openings
  rw [hnotes]
  cases needed <;> simp

/-- **`COMMIT` of a new session.** -/
theorem commitOpening : Triple ((challengeContract env).judge p) p (Opens env p needed)
    (commitTx : Db Unit) fun _ => Idle env fun _ => True := by
  refine Triple.commitLogged stable_opens kept_true.idle (fun c hb hc => hc.guar hb)
    (fun tx s hb hc => ?_) fun c hc => hc.isOpen
  exact ⟨Quiet.of_clean ((hc.guar hb).2 tx rfl) (.inl rfl), trivial⟩

/-- **`create_login_session`** opens the session that it is entitled to. -/
theorem createLoginSession_opens (persistent : Bool) (keys : LoginContext)
    (user : Repositories.Users.Found) (checkedAt : Nat) (completed : Option (Nat × Factor)) :
    Triple ((challengeContract env).judge p) p
      (Idle env (Entitled env p (Event.sessionCreated user.id completed).opening))
      (Services.Auth.createLoginSession env config persistent keys user checkedAt completed)
      fun _ => Idle env fun _ => True := by
  have hφ := ordinary_aside
  have hg : Kept env p (Entitled env p (Event.sessionCreated user.id completed).opening) :=
    kept_entitled _
  refine (hg.within utcNow_within).bind fun _ => ?_
  refine (hg.beside begin_steps).bind fun _ => ?_
  refine (hg.within (Repositories.Users.updateLastLogin_within hφ _)).bind fun _ => ?_
  refine (hg.within (Repositories.AuthSessions.clearLoginFailures_within hφ _)).bind fun _ => ?_
  refine (hg.within (Repositories.AuthSessions.clearLoginFailures_within hφ _)).bind fun _ => ?_
  refine (createSession_opens (Event.sessionCreated user.id completed).opening _ (by rfl)).bind
    fun sessionId => ?_
  refine (opensBeside (Repositories.AuthSessions.enforceUserLimit_within hφ _ _)).bind
    fun revoked => ?_
  refine (opensBeside (Services.Auth.recordSessionRevocation_within hφ.auditLogs _ _ _ _)).bind
    fun _ => ?_
  refine (opensBeside (Repositories.AuthSessions.prune_within hφ)).bind fun _ => ?_
  refine (opensBeside (Repositories.AuditLogs.record_within hφ.auditLogs _ _ _ _ _)).bind
    fun _ => ?_
  refine commitOpening.bind fun _ => ?_
  exact kept_true.within (.bind (Repositories.Users.roleNamesByUser_within _) fun _ => .ret)

/-- The session of an answered challenge. -/
theorem openSession_opens {challenge : Challenge} {factor : Factor} {user : Repositories.Users.Found}
    {g : List (Entry Table) → Prop} (login : LoginContext) :
    Triple ((challengeContract env).judge p) p
      (Idle env fun log => Entitled env p (some ⟨challenge.id, factor, user.id⟩) log ∧ g log)
      (Services.Mfa.openSession env config challenge factor login user)
      fun _ => Idle env fun _ => True :=
  (createLoginSession_opens _ _ user _ (some (challenge.id, factor))).pre
    fun _ hc => ⟨hc.1, hc.2.1⟩

end Opening

/-! ## Requests

The walk through the programs of all requests.
-/

section Requests

variable {env : External} {config : AuthSessionConfig} {p : Nat} {g : List (Entry Table) → Prop}

/-- **`create_challenge`** with a token of its own. -/
theorem createChallenge_issues {new : Repositories.Mfa.NewChallenge}
    (htoken : new.tokenHash = fun n => env.tokenHash (env.randomToken n 0)) :
    (Repositories.Mfa.createChallenge new).All (Act.Within (unanswered env)) := by
  refine .bind query_within fun s => .bind (Prog.All.insert fun n => ?_) fun _ =>
    .bind (references_within _ _ _) fun _ => .ret
  exact ⟨congrFun htoken n, rfl, rfl, rfl, _, rfl⟩

theorem ordinary_unanswered : Ordinary (unanswered env) where
  auditLogs _ _ _ _ := trivial
  loginAttempts _ _ _ _ := trivial
  settings _ _ _ := trivial
  reauthentications _ _ _ _ := trivial
  passkeys _ _ _ := trivial
  stepUpTokens _ _ _ _ := trivial
  moduleUnlocks _ _ _ _ := trivial
  sessions _ _ _ _ he := by cases he
  users _ _ _ := trivial
  passwords _ _ _ := trivial
  userRoles _ _ _ := trivial
  rolePermissions _ _ _ := trivial

/-- Challenges are removed without a trace. -/
theorem pruneChallenges_issues :
    Repositories.Mfa.pruneChallenges.All (Act.Within (unanswered env)) :=
  .bind (Prog.All.delete (fun _ _ _ _ => noEvents) trivial) fun _ => .ret

/-- The open login challenges of a user are superseded. -/
theorem consumeLoginChallenges_issues (userId : Nat) :
    (Repositories.Mfa.consumeLoginChallengesForUser userId).All (Act.Within (unanswered env)) := by
  refine .bind (Prog.All.update (fun s id row hcond => ?_) trivial) fun _ => .ret
  have hopen : (row.userId == userId && row.consumedAt.isNone && isLoginKind row.kind) = true :=
    hcond
  simp only [Bool.and_eq_true, Option.isNone_iff_eq_none] at hopen
  exact ⟨hopen.1.2, hopen.2, rfl, s.now, rfl⟩

theorem beginLogin_issues (user : Repositories.Users.Found) (persistent : Bool)
    (login : LoginContext) :
    (Services.Mfa.beginLogin env user persistent login).All (Act.Steps (unanswered env)) := by
  have hφ : Ordinary (unanswered env) := ordinary_unanswered
  refine .bind (within_steps (Repositories.Mfa.summary_within _)) fun summary => ?_
  simp only
  split
  · exact .ret
  refine .bind (within_steps utcNow_within) fun _ => ?_
  refine .bind begin_steps fun _ => ?_
  refine .bind (within_steps pruneChallenges_issues) fun _ => ?_
  refine .bind (within_steps (consumeLoginChallenges_issues user.id)) fun _ => ?_
  split
  · -- enrollment
    refine .bind (within_steps fresh_within) fun _ => ?_
    refine .bind (within_steps fresh_within) fun _ => ?_
    refine .bind (all_okOr _ _) fun _ => ?_
    refine .bind (within_steps fresh_within) fun _ => ?_
    refine .bind (within_steps (Repositories.Mfa.ensureSettings_within hφ _ _)) fun _ => ?_
    refine .bind (within_steps (createChallenge_issues rfl)) fun _ => ?_
    refine .bind (within_steps (Repositories.AuditLogs.record_within hφ.auditLogs _ _ _ _ _))
      fun _ => ?_
    refine .bind commit_steps fun _ => ?_
    exact .bind (all_okOr _ _) fun _ => .ret
  · -- a second factor that is already there
    refine .bind (within_steps (createChallenge_issues rfl)) fun _ => ?_
    refine .bind (within_steps (Repositories.AuditLogs.record_within hφ.auditLogs _ _ _ _ _))
      fun _ => ?_
    exact .bind commit_steps fun _ => .ret

theorem startPasskeyRegistration_issues (user : UserResponse)
    (req : MfaPasskeyRegistrationStartRequest) :
    (Services.Mfa.startPasskeyRegistration env user req).All (Act.Steps (unanswered env)) := by
  have hφ : Ordinary (unanswered env) := ordinary_unanswered
  dsimp only [Services.Mfa.startPasskeyRegistration]
  refine .bind (all_reject _ _) fun _ => ?_
  refine .bind (Services.Mfa.verifyPasswordAndTotp_steps hφ _ _ _) fun _ => ?_
  refine .bind (within_steps (Repositories.Mfa.listPasskeys_within _)) fun _ => ?_
  refine .bind begin_steps fun _ => ?_
  refine .bind (within_steps fresh_within) fun _ => ?_
  refine .bind (within_steps (Repositories.Mfa.ensureSettings_within hφ _ _)) fun _ => ?_
  refine .bind (within_steps fresh_within) fun _ => ?_
  refine .bind (all_okOr _ _) fun _ => ?_
  refine .bind (within_steps utcNow_within) fun _ => ?_
  refine .bind (within_steps (createChallenge_issues rfl)) fun _ => ?_
  refine .bind (within_steps (Repositories.AuditLogs.record_within hφ.auditLogs _ _ _ _ _))
    fun _ => ?_
  exact .bind commit_steps fun _ => .ret

/-- A program within `aside`, with nothing to remember. -/
theorem idle_within {α : Type} {m : Db α} (hm : m.All (Act.Within aside)) :
    Triple ((challengeContract env).judge p) p (Idle env fun _ => True) m
      fun _ => Idle env fun _ => True := kept_true.within hm

theorem login_kept (req : LoginRequest) (clientIp : String) :
    Triple ((challengeContract env).judge p) p (Idle env fun _ => True)
      (Services.Auth.login env config req clientIp) fun _ => Idle env fun _ => True := by
  have hφ := ordinary_aside
  refine (idle_within (Services.Auth.lockedUntil_within _)).bind fun locked => ?_
  cases locked with
  | some locked => exact (idle_within utcNow_within).bind fun _ => Triple.fail
  | none =>
    refine (idle_within (Repositories.Users.findByUsername_within _)).bind fun row => ?_
    simp only
    split
    · refine (kept_true.beside (Services.Auth.recordFailedLogin_steps hφ _ _)).bind fun locked => ?_
      cases locked with
      | some locked => exact (idle_within utcNow_within).bind fun _ => Triple.fail
      | none => exact Triple.fail
    · refine (kept_true.steps (beginLogin_issues _ _ _)).bind fun response => ?_
      cases response with
      | some response => exact idle_within .ret
      | none =>
        -- a session without a second factor needs no ticket
        refine ((createLoginSession_opens _ _ _ _ none).pre fun c hc => ⟨hc.1, ?_⟩).bind
          fun _ => idle_within .ret
        intro o ho
        cases ho

/-- The time step that a code matches, for the user of a locked challenge. -/
theorem Kept.checkCode {kind : String} {challenge : Challenge} (hg : Kept env p g)
    (userId : Nat) (encrypted code : String) :
    Triple ((challengeContract env).judge p) p
      (fun c => Held env kind challenge c ∧ g c.server.log)
      (Services.Mfa.checkCode env userId encrypted code)
      fun r c => r.1.id = userId ∧ Held env kind challenge c ∧ g c.server.log := by
  refine (hg.holding (all_okOr _ _)).bind fun _ => ?_
  refine Triple.bind (R := fun o c => (∀ found, o = some found → found.id = userId) ∧
    Held env kind challenge c ∧ g c.server.log) ?_ fun o => Triple.assuming fun hfound => ?_
  · refine (hg.holding poolQuery_within).bind fun s => Triple.ret hg.held fun c _ hc => ⟨?_, hc⟩
    intro found hfound
    obtain ⟨row, _, rfl⟩ := Option.map_eq_some_iff.1 hfound
    rfl
  · refine (Triple.okOr hg.held).bind fun user => Triple.assuming fun huser => ?_
    refine (hg.holding utcNow_within).bind fun _ => ?_
    refine (hg.holding (all_okOr _ _)).bind fun _ => ?_
    exact Triple.ret hg.held fun c _ hc => ⟨hfound user huser, hc⟩

theorem verifyTotpLogin_kept (challengeToken code : String) :
    Triple ((challengeContract env).judge p) p (Idle env fun _ => True)
      (Services.Mfa.verifyTotpLogin env config challengeToken code)
      fun _ => Idle env fun _ => True := by
  have hg : Kept env p fun _ => True := kept_true
  refine hg.begins.bind fun _ => Triple.ofExists fun start => ?_
  refine (lockChallenge_held _ start).bind fun challenge => ?_
  refine (hg.holding (all_okOrThrow _)).bind fun login => ?_
  refine (hg.holding (Repositories.Mfa.totpSecretForUpdate_within _)).bind fun _ => ?_
  refine (hg.holding (all_okOr _ _)).bind fun _ => ?_
  refine (hg.checkCode _ _ _).bind fun r => Triple.assuming fun huser => ?_
  obtain ⟨user, counter⟩ := r
  cases counter with
  | none => exact (failChallenge_recorded _ _).pre fun c hc => hc.1
  | some counter =>
    refine (hg.consumeChallenge (by rfl)).bind fun _ => ?_
    refine (hg.spending (spends (Repositories.AuditLogs.record_within ordinary_aside.auditLogs
      _ _ _ _ _))).bind fun _ => ?_
    -- the answer is committed first, and the session is opened in a transaction of its own
    refine (hg.commitAnswer fun _ => huser.symm).bind fun _ => ?_
    exact openSession_opens login

/-- A challenge is found again by its token. -/
theorem IssuedTo.userId {kind : String} {challenge challenge' : Challenge} {c : Conn Table}
    {tokenHash : String} (htokens : TokensDiffer env)
    (htoken : challenge.row.tokenHash = tokenHash) (htoken' : challenge'.row.tokenHash = tokenHash)
    (hid : challenge.row.tokenHash = env.tokenHash (env.randomToken challenge.id 0))
    (hissued : IssuedTo challenge.id challenge.row.userId c.server.log)
    (hheld : Held env kind challenge' c) : challenge'.row.userId = challenge.row.userId := by
  obtain ⟨hid', _, course, hof, hpast⟩ := hheld.law
  -- the two have the same number
  have hsame : challenge'.id = challenge.id := by
    refine htokens ?_
    show env.tokenHash (env.randomToken challenge'.id 0) = env.tokenHash (env.randomToken challenge.id 0)
    rw [← hid, ← hid', htoken, htoken']
  obtain ⟨kind, expiresAt, successorOf, hmem⟩ := hissued
  have hevent : Event.challengeIssued challenge.row.userId kind expiresAt successorOf ∈
      course.events := by
    rw [← hpast, hsame]
    exact List.mem_append_left _ hmem
  rcases List.mem_cons.1 hevent with heq | hlater
  · injection heq with huser
    rw [huser, hof.userId]
  · rcases List.mem_append.1 hlater with hfailure | hend
    · cases List.eq_of_mem_replicate hfailure
    · cases hending : course.ending <;> rw [hending] at hend <;> simp [ChallengeEnding.events] at hend

theorem verifyTotpEnrollment_kept (challengeToken code : String) :
    Triple ((challengeContract env).judge p) p (Idle env fun _ => True)
      (Services.Mfa.verifyTotpEnrollment env config challengeToken code)
      fun _ => Idle env fun _ => True := by
  have hφ := ordinary_aside
  have hg : Kept env p fun _ => True := kept_true
  refine hg.begins.bind fun _ => Triple.ofExists fun start => ?_
  refine (hg.lockChallenge _ start).bind fun challenge => Triple.assuming fun htoken => ?_
  -- the number and the user of the challenge are remembered for the second time
  have hfirst : ∀ c, Held env "totp_enrollment" challenge c ∧
      IssuedTo challenge.id challenge.row.userId c.server.log ∧ True →
      challenge.row.tokenHash = env.tokenHash (env.randomToken challenge.id 0) ∧
        Held env "totp_enrollment" challenge c ∧
          IssuedTo challenge.id challenge.row.userId c.server.log :=
    fun c hc => ⟨hc.1.law.1, hc.1, hc.2.1⟩
  refine Triple.pre (P := fun c => challenge.row.tokenHash =
    env.tokenHash (env.randomToken challenge.id 0) ∧ Held env "totp_enrollment" challenge c ∧
      IssuedTo challenge.id challenge.row.userId c.server.log) ?_ hfirst
  refine Triple.assuming fun hid => ?_
  have hi : Kept env p (IssuedTo challenge.id challenge.row.userId) := kept_issuedTo _ _
  refine (hi.holding (all_okOrThrow _)).bind fun _ => ?_
  refine (hi.holding (all_okOr _ _)).bind fun encrypted => ?_
  refine (hi.checkCode _ _ _).bind fun r => Triple.assuming fun huser => ?_
  obtain ⟨user, counter⟩ := r
  cases counter with
  | none => exact (failChallenge_recorded _ _).pre fun c hc => hc.1
  | some counter =>
    -- the codes are hashed without the lock, so the challenge is looked up a second time
    have hrollback : Triple ((challengeContract env).judge p) p
        (Idle env (IssuedTo challenge.id challenge.row.userId)) (rollbackTx : Db Unit)
        fun _ => Idle env (IssuedTo challenge.id challenge.row.userId) :=
      hi.beside rollback_steps
    refine (hrollback.pre fun c hc => ⟨hc.1.quiet, hc.2⟩).bind fun _ => ?_
    refine (hi.within Services.Mfa.generateRecoveryCodes_within).bind fun _ => ?_
    refine (hi.within (Services.Mfa.hashRecoveryCodes_within _)).bind fun hashes => ?_
    refine hi.begins.bind fun _ => Triple.ofExists fun start' => ?_
    refine (hi.lockChallenge _ start').bind fun challenge' => Triple.assuming fun htoken' => ?_
    refine Triple.pre (P := fun c => (TokensDiffer env → challenge'.row.userId = user.id) ∧
      Held env "totp_enrollment" challenge' c ∧ True) ?_ fun c hc => ⟨fun htokens => ?_, hc.1, trivial⟩
    · refine Triple.assuming fun hsame => ?_
      refine (hg.holding (all_okOrThrow _)).bind fun login => ?_
      refine (hg.holding (Repositories.Mfa.enableTotp_within (fun _ _ _ => trivial) _ _)).bind
        fun _ => ?_
      refine (hg.holding (Repositories.Mfa.replaceRecoveryCodes_within hφ
        ⟨fun _ _ => trivial, fun _ _ _ => trivial⟩ _ _)).bind fun _ => ?_
      refine (hg.consumeChallenge (by rfl)).bind fun _ => ?_
      refine (hg.spending (spends (Repositories.AuditLogs.record_within hφ.auditLogs
        _ _ _ _ _))).bind fun _ => ?_
      refine (hg.commitAnswer hsame).bind fun _ => ?_
      exact (openSession_opens login.1).bind fun _ => idle_within .ret
    · rw [huser]
      exact IssuedTo.userId htokens htoken htoken' hid hc.2.2 hc.1

theorem verifyRecoveryLogin_kept (challengeToken recoveryCode : String) :
    Triple ((challengeContract env).judge p) p (Idle env fun _ => True)
      (Services.Mfa.verifyRecoveryLogin env config challengeToken recoveryCode)
      fun _ => Idle env fun _ => True := by
  have hφ := ordinary_aside
  have hg : Kept env p fun _ => True := kept_true
  refine (idle_within (Repositories.Mfa.challenge_within _ _)).bind fun _ => ?_
  refine (idle_within (all_okOr _ _)).bind fun _ => ?_
  refine (idle_within (Repositories.Mfa.recoveryCodes_within _)).bind fun _ => ?_
  refine (idle_within (all_okOrThrow _)).bind fun matchingId => ?_
  refine hg.begins.bind fun _ => Triple.ofExists fun start => ?_
  refine (lockChallenge_held _ start).bind fun challenge => ?_
  -- another request may have spent the code since it was compared
  refine (hg.holding (Services.Mfa.spendRecoveryCode_within (fun _ _ _ => trivial) _ _)).bind
    fun consumed => ?_
  cases consumed with
  | none => exact (failChallenge_recorded _ _).pre fun c hc => hc.1
  | some matchingId =>
    refine (hg.holding (all_okOrThrow _)).bind fun login => ?_
    refine (hg.consumeChallenge (by rfl)).bind fun _ => ?_
    refine (hg.spending (spends (Repositories.AuthSessions.revokeAllForUser_within hφ.sessions
      _))).bind fun revoked => ?_
    refine (hg.spending (all_perform (.inr ⟨_, rfl⟩))).bind fun _ => ?_
    refine (hg.spending (spends (Services.Auth.recordSessionRevocation_within hφ.auditLogs
      _ _ _ _))).bind fun _ => ?_
    refine (hg.spending (spends (Repositories.AuditLogs.record_within hφ.auditLogs
      _ _ _ _ _))).bind fun _ => ?_
    refine (hg.commitAnswer fun _ => rfl).bind fun _ => ?_
    -- the session is for the user of the challenge
    have ht : Kept env p _ :=
      (kept_entitled (some ⟨challenge.id, .recoveryCode matchingId, challenge.row.userId⟩)).and hg
    refine (ht.findById _).bind fun found => ht.foundUser.bind fun user => ?_
    refine Triple.assuming fun huser => ?_
    rw [← huser]
    exact openSession_opens login

theorem finishPasskeyAuthentication_kept (challengeToken credential : String) :
    Triple ((challengeContract env).judge p) p (Idle env fun _ => True)
      (Services.Mfa.finishPasskeyAuthentication env config challengeToken credential)
      fun _ => Idle env fun _ => True := by
  have hφ := ordinary_aside
  have hg : Kept env p fun _ => True := kept_true
  refine hg.begins.bind fun _ => Triple.ofExists fun start => ?_
  refine (lockChallenge_held _ start).bind fun challenge => ?_
  refine (hg.holding (all_okOrThrow _)).bind fun state => ?_
  refine (hg.holding (Repositories.Mfa.listPasskeys_within _)).bind fun passkeys => ?_
  cases env.finishPasskeyAuthentication credential state.2 with
  | none => exact (failChallenge_recorded _ _).pre fun c hc => hc.1
  | some result =>
    refine (hg.holding (all_okOr _ _)).bind fun used => ?_
    refine (hg.holding (Repositories.Mfa.updatePasskeyAfterUse_within hφ _ _)).bind fun _ => ?_
    refine (hg.consumeChallenge (by rfl)).bind fun _ => ?_
    refine (hg.spending (spends (Repositories.AuditLogs.record_within hφ.auditLogs
      _ _ _ _ _))).bind fun _ => ?_
    refine (hg.commitAnswer fun _ => rfl).bind fun _ => ?_
    have ht : Kept env p _ :=
      (kept_entitled (some ⟨challenge.id, .passkey used.1 passkeys.asOf, challenge.row.userId⟩)).and hg
    refine (ht.findById _).bind fun found => ht.foundUser.bind fun user => ?_
    refine Triple.assuming fun huser => ?_
    rw [← huser]
    exact openSession_opens state.1

theorem startPasskeyAuthentication_kept (challengeToken : String) :
    Triple ((challengeContract env).judge p) p (Idle env fun _ => True)
      (Services.Mfa.startPasskeyAuthentication env challengeToken)
      fun _ => Idle env fun _ => True := by
  have hg : Kept env p fun _ => True := kept_true
  refine hg.begins.bind fun _ => Triple.ofExists fun start => ?_
  refine (lockChallenge_held _ start).bind fun challenge => ?_
  refine (hg.holding (all_okOrThrow _)).bind fun login => ?_
  refine (hg.holding (Repositories.Mfa.listPasskeys_within _)).bind fun passkeys => ?_
  refine (hg.holding fresh_within).bind fun n => ?_
  refine (hg.holding (all_okOr _ _)).bind fun started => ?_
  refine (hg.consumeChallenge (by rfl)).bind fun _ => ?_
  refine (hg.spending (spends utcNow_within)).bind fun now => ?_
  refine (hg.spending ((createChallenge_issues rfl).mono fun _ ha => .inl ha)).bind
    fun successor => ?_
  refine (hg.commitAnswer fun _ => rfl).bind fun _ => ?_
  exact (idle_within .ret).pre fun c hc => ⟨hc.1, trivial⟩

theorem finishPasskeyRegistration_kept (userId : Nat) (challengeToken credential : String) :
    Triple ((challengeContract env).judge p) p (Idle env fun _ => True)
      (Services.Mfa.finishPasskeyRegistration env userId challengeToken credential)
      fun _ => Idle env fun _ => True := by
  have hφ := ordinary_aside
  have hg : Kept env p fun _ => True := kept_true
  refine hg.begins.bind fun _ => Triple.ofExists fun start => ?_
  refine (hg.challengeForUpdate _ start).bind fun o => ?_
  cases o with
  | none => exact Triple.fail
  | some challenge =>
    refine Triple.pre (P := fun c => Held env "passkey_registration" challenge c ∧ True) ?_
      fun c hc => ⟨(hc challenge rfl).2.1, trivial⟩
    refine (Triple.okOr hg.held).bind fun challenge' => Triple.assuming fun hfilter => ?_
    have hsame : challenge = challenge' := (Option.filter_eq_some_iff.1 hfilter).1 |> Option.some.inj
    subst hsame
    refine (hg.holding (all_okOrThrow _)).bind fun state => ?_
    refine (hg.holding (all_okOr _ _)).bind fun answer => ?_
    refine (hg.holding (all_okOr _ _)).bind fun passkey => ?_
    refine (hg.holding (Repositories.Mfa.createPasskey_within (fun _ _ => trivial) _ _ _ _)).bind
      fun _ => ?_
    refine (hg.consumeChallenge (by rfl)).bind fun _ => ?_
    refine (hg.spending (spends (Repositories.AuditLogs.record_within hφ.auditLogs
      _ _ _ _ _))).bind fun _ => ?_
    refine (hg.commitAnswer fun _ => rfl).bind fun _ => ?_
    exact (idle_within (Services.Mfa.status_within _)).pre fun c hc => ⟨hc.1, trivial⟩

/-- The request issues or locks a challenge. -/
def Request.usesChallenge : Request → Bool
  | .login .. | .verifyTotp .. | .verifyRecoveryCode .. | .startPasskeyAuthentication ..
  | .finishPasskeyAuthentication .. | .startPasskeyRegistration ..
  | .finishPasskeyRegistration .. => true
  | _ => false

/-- The other requests have nothing to do with challenges. -/
theorem serve_aside {req : Request} (hother : req.usesChallenge = false) :
    (serve env config req).All (Act.Tells aside req.Notes) := by
  have hfree : ∀ t ∈ [Table.userRoles, .users, .roles, .rolePermissions, .userPasskeys,
      .userMfaRecoveryCodes, .departments], Free aside t := by
    intro t ht
    refine free_aside ?_ ?_ <;> rintro rfl <;> revert ht <;> decide
  refine serve_tells ordinary_aside ?_ ?_
  · cases req <;> first | rfl | cases hother
  · cases req with
    | login | verifyTotp | verifyRecoveryCode | startPasskeyAuthentication
    | finishPasskeyAuthentication | startPasskeyRegistration | finishPasskeyRegistration =>
      cases hother
    | revokePasskey => exact hfree .userPasskeys (by decide)
    | regenerateRecoveryCodes => exact .of_free (hfree .userMfaRecoveryCodes (by decide))
    | createUser | assignRoles | batchAssignRoles | bootstrapSuperAdmin =>
      exact hfree .userRoles (by decide)
    | updateUser => exact hfree .users (by decide)
    | createRole => exact ⟨hfree .roles (by decide), hfree .rolePermissions (by decide)⟩
    | updateRole | deleteRole => exact hfree .roles (by decide)
    | putRolePermissions => exact hfree .rolePermissions (by decide)
    | createDepartment | updateDepartment | deleteDepartment =>
      exact hfree .departments (by decide)
    | logout | me | changePassword | stepUp | moduleUnlockStatus | moduleUnlock | mePermissions
    | mfaStatus | deleteUser | batchDeleteUsers | getRole | getRolePermissions => trivial

theorem serve_kept (req : Request) :
    Triple ((challengeContract env).judge p) p (Idle env fun _ => True) (serve env config req)
      fun _ => Idle env fun _ => True := by
  have hother : req.usesChallenge = false → Triple ((challengeContract env).judge p) p
      (Idle env fun _ => True) (serve env config req) fun _ => Idle env fun _ => True :=
    fun hnone => kept_true.walk ((serve_aside hnone).mono fun _ ha =>
      ha.mono (fun _ _ _ _ _ h => aside_unanswered h) fun _ _ => trivial)
  cases req with
  | login req clientIp =>
    refine (login_kept req clientIp).bind fun outcome => ?_
    cases outcome <;> exact idle_within .ret
  | verifyTotp req =>
    refine Triple.bind ?_ fun _ => idle_within .ret
    refine (idle_within (Repositories.Mfa.challengeKind_within _)).bind fun _ => ?_
    refine (idle_within (all_okOr _ _)).bind fun kind => ?_
    split
    · exact verifyTotpEnrollment_kept _ _
    · exact verifyTotpLogin_kept _ _
  | verifyRecoveryCode req =>
    exact (verifyRecoveryLogin_kept _ _).bind fun _ => idle_within .ret
  | startPasskeyAuthentication challengeToken =>
    exact (startPasskeyAuthentication_kept _).bind fun _ => idle_within .ret
  | finishPasskeyAuthentication req =>
    exact (finishPasskeyAuthentication_kept _ _).bind fun _ => idle_within .ret
  | startPasskeyRegistration parts req =>
    refine (kept_true.beside (authenticate_steps ordinary_aside _)).bind fun _ => ?_
    refine (idle_within (Services.Auth.me_within _)).bind fun _ => ?_
    exact (kept_true.steps (startPasskeyRegistration_issues _ _)).bind fun _ => idle_within .ret
  | finishPasskeyRegistration parts req =>
    refine (kept_true.beside (authenticate_steps ordinary_aside _)).bind fun _ => ?_
    exact (finishPasskeyRegistration_kept _ _ _).bind fun _ => idle_within .ret
  | _ => exact hother rfl

/-- **Every request keeps the challenges.** -/
theorem requests_keepChallenges (env : External) (config : AuthSessionConfig) {s₀ : Server Table}
    (h₀ : s₀.Wf) (hkept : ChallengesKept env s₀) :
    (challengeContract env).Kept (serve env config) s₀ fun _ _ _ _ => True where
  base _ h p := h.wf h₀ p
  init := hkept
  advance _ _ _ h := ⟨h.law, h.answered, h.once⟩
  prog p req := by
    intro c hc
    -- the first act takes place in a state that is kept
    refine wp_of_rely fun d hd hb => ?_
    have hclean : d.tx = none := (Contract.stable_tx fun otx => otx = none).rely hd hc
    have hidle : Idle env (fun _ => True) d := ⟨Quiet.of_clean hb.2 (.inl hclean), trivial⟩
    exact wp_mono (fun _ _ _ => trivial) (serve_kept req d hidle)

/-- An installation before its first login. -/
theorem ChallengesKept.init {s : Server Table} (hlog : s.log = [])
    (hrows : s.store.rows .authMfaChallenges = []) : ChallengesKept env s := by
  refine ⟨fun id => ?_, ?_, ?_⟩
  · have hnone : (⟨none, s⟩ : Conn Table).view.get .authMfaChallenges id = none :=
      Store.get_of_rows_nil hrows id
    rw [hnone, Conn.history_none, hlog]
    exact .inl rfl
  · rw [hlog]
    exact fun o ho => by cases ho
  · rw [hlog]
    exact List.nodup_nil

end Requests

/-! ## The main theorems

From the contract to runs, by its soundness.
-/

/-- The challenges of a running service obey their law. -/
theorem challengeLaw_reachable (env : External) (config : AuthSessionConfig) {s₀ : Server Table}
    (h₀ : s₀.Wf) (hlog : s₀.log = []) (hrows : s₀.store.rows .authMfaChallenges = [])
    {C : Db.Config} (hC : Reachable (serve env config) s₀ C) (id : Nat) :
    challengeLaw env id (C.server.store.get .authMfaChallenges id)
      (history C.server.log ⟨.authMfaChallenges, id⟩) := by
  have hkept : ChallengesKept env C.server :=
    (Contract.sound (requests_keepChallenges env config h₀ (.init hlog hrows)) hC).1
  have hlaw := hkept.law id
  rw [Conn.history_none] at hlaw
  exact hlaw

/-- **The life of a challenge.** In every interleaving of all requests, what has happened to a
challenge is a course: it is issued, answered wrongly at most five times, and then superseded, closed
by its fifth wrong answer, or answered once, in time and with a factor of its kind. As long as it is
stored, its row tells the same. -/
theorem challenge_course (env : External) (config : AuthSessionConfig) {s₀ : Server Table}
    (h₀ : s₀.Wf) (hlog : s₀.log = []) (hrows : s₀.store.rows .authMfaChallenges = [])
    {C : Db.Config} (hC : Reachable (serve env config) s₀ C) (id : Nat) :
    (history C.server.log ⟨.authMfaChallenges, id⟩ = [] ∨
        ∃ course : Course, history C.server.log ⟨.authMfaChallenges, id⟩ = course.events) ∧
      ∀ row : ChallengeRow, C.server.store.get .authMfaChallenges id = some row →
        row.maxAttempts = maxAttempts ∧ ∃ course : Course, course.Of row ∧
          history C.server.log ⟨.authMfaChallenges, id⟩ = course.events := by
  have hlaw := challengeLaw_reachable env config h₀ hlog hrows hC id
  refine ⟨hlaw.course, fun row hrow => ?_⟩
  rw [hrow] at hlaw
  exact hlaw.2

/-- A session that is stored for a challenge has left its entry in the journal. -/
theorem opening_of_session (env : External) (config : AuthSessionConfig) {s₀ : Server Table}
    (h₀ : s₀.Wf) (hsessions : s₀.store.rows .authSessions = []) {C : Db.Config}
    (hC : Reachable (serve env config) s₀ C) {id : Nat} {session : SessionRow}
    (hrow : C.server.store.get .authSessions id = some session) {challenge : Nat} {factor : Factor}
    (hdone : session.completed = some (challenge, factor)) :
    ∃ e ∈ C.server.log, e.key = some ⟨.authSessions, id⟩ ∧
      opening e.key e.ev = some ⟨challenge, factor, session.userId⟩ := by
  have hstart : ∀ j : Nat, sessionLaw j (s₀.store.get .authSessions j)
      (history s₀.log ⟨.authSessions, j⟩) := by
    intro j row hstored
    have hnone : s₀.store.get .authSessions j = none := Store.get_of_rows_nil hsessions j
    rw [hnone] at hstored
    cases hstored
  have hlaw : sessionLaw id (C.server.store.get .authSessions id)
      (history C.server.log ⟨.authSessions, id⟩) := by
    have hlawful := (rowLaw_session.reachable h₀ hstart hC 0).1 id
    rw [Conn.history_none] at hlawful
    exact hlawful
  have hmem : Event.sessionCreated session.userId session.completed ∈
      history C.server.log ⟨.authSessions, id⟩ := by
    rw [hlaw session hrow]
    exact List.mem_singleton_self _
  obtain ⟨e, he, hkey, hev⟩ := mem_history.1 hmem
  refine ⟨e, he, hkey, ?_⟩
  rw [hkey, hev, hdone]
  rfl

/-- **One challenge, one entry**: no two sessions are opened for it. -/
theorem ChallengesKept.eq_of_opening {env : External} {s : Server Table} (h : ChallengesKept env s)
    {e e' : Entry Table} {o o' : SessionOpening} (he : e ∈ s.log) (he' : e' ∈ s.log)
    (hopening : opening e.key e.ev = some o) (hopening' : opening e'.key e'.ev = some o')
    (hsame : o.challenge = o'.challenge) : e = e' := by
  have hone : (s.log.filterMap fun x =>
      (opening x.key x.ev).map SessionOpening.challenge).Nodup := by
    have honce := h.once
    unfold sessionOpenings at honce
    rw [List.map_filterMap] at honce
    exact honce
  refine eq_of_nodup_filterMap hone he he' (x := o.challenge) ?_ ?_
  · rw [hopening]
    rfl
  · rw [hopening', hsame]
    rfl

/-- **A session is earned.** In every interleaving of all requests, a session that was opened for a
challenge belongs to the user of that challenge, who has answered it with that factor. No other
session has ever been opened for it: the journal keeps the sessions that have been pruned, and every
entry of a session for this challenge is the one of this session. -/
theorem session_earned (env : External) (config : AuthSessionConfig) {s₀ : Server Table}
    (h₀ : s₀.Wf) (hlog : s₀.log = []) (hrows : s₀.store.rows .authMfaChallenges = [])
    (hsessions : s₀.store.rows .authSessions = []) (htokens : TokensDiffer env) {C : Db.Config}
    (hC : Reachable (serve env config) s₀ C) {id : Nat} {session : SessionRow}
    (hrow : C.server.store.get .authSessions id = some session) {challenge : Nat} {factor : Factor}
    (hdone : session.completed = some (challenge, factor)) :
    (∃ course : Course, history C.server.log ⟨.authMfaChallenges, challenge⟩ = course.events ∧
        course.userId = session.userId ∧ ∃ at', course.ending = .succeeded at' factor) ∧
      ∀ (p id' userId' : Nat) (factor' : Factor),
        Logged C.server.log p ⟨.authSessions, id'⟩
          (.sessionCreated userId' (some (challenge, factor'))) → id' = id := by
  have hkept : ChallengesKept env C.server :=
    (Contract.sound (requests_keepChallenges env config h₀ (.init hlog hrows)) hC).1
  obtain ⟨e, he, hkey, hopening⟩ := opening_of_session env config h₀ hsessions hC hrow hdone
  refine ⟨?_, fun p id' userId' factor' hlogged => ?_⟩
  · obtain ⟨userId, at', hanswer, huser⟩ :=
      hkept.answered _ (List.mem_filterMap.2 ⟨e, he, hopening⟩)
    rcases (challengeLaw_reachable env config h₀ hlog hrows hC challenge).course with hnone | ⟨course, hpast⟩
    · rw [hnone] at hanswer
      cases hanswer
    · rw [hpast] at hanswer
      obtain ⟨hcourse, hending⟩ := Course.ending_of_answer hanswer
      exact ⟨course, hpast, hcourse.trans (huser htokens), at', hending⟩
  · -- both entries open a session for the one challenge, so they are one entry of the journal
    have hopening' : opening (some ⟨.authSessions, id'⟩)
        (.sessionCreated userId' (some (challenge, factor'))) = some ⟨challenge, factor', userId'⟩ := rfl
    have heq := hkept.eq_of_opening hlogged he hopening' hopening rfl
    rw [← heq] at hkey
    injection hkey with hsame
    injection hsame

/-! ## The sample installation

A login with both factors, evaluated, as an instance of both theorems.
-/

/-- The sample installation after a login of `agent` with both factors. -/
def agentTotpLogin : Db.Config :=
  (Stage.after (serve Sample.external Sample.config) Sample.server
    [.start (Sample.login "agent"), .run 0 100, .start (Sample.verifyTotp 20), .run 1 200]).config

theorem agentLogin_reachable :
    Reachable (serve Sample.external Sample.config) Sample.server agentTotpLogin :=
  Stage.reachable_after _ _ _

theorem challenge_course_sample : ∃ row : ChallengeRow,
    agentTotpLogin.server.store.get .authMfaChallenges (20 : Nat) = some row ∧
      row.maxAttempts = maxAttempts ∧ ∃ course : Course, course.Of row ∧
        history agentTotpLogin.server.log ⟨.authMfaChallenges, (20 : Nat)⟩ = course.events := by
  have hstored : (agentTotpLogin.server.store.get .authMfaChallenges (20 : Nat)).isSome = true := by
    decide +kernel
  obtain ⟨row, hrow⟩ := Option.isSome_iff_exists.1 hstored
  exact ⟨row, hrow, (challenge_course Sample.external Sample.config Sample.server_wf rfl (by decide)
    agentLogin_reachable 20).2 row hrow⟩

/-- The tokens of the sample are told apart by their letters. -/
theorem tokensDiffer_sample : TokensDiffer Sample.external := by
  intro n m h
  have htoken : Sample.token n 0 = Sample.token m 0 := h
  have ha : ∀ k, (Sample.token k 0).toList.count 'a' = k % 60 := by
    intro k
    simp [Sample.token, List.count_append, List.count_replicate]
  have hc : ∀ k, (Sample.token k 0).toList.count 'c' = k / 60 := by
    intro k
    simp [Sample.token, List.count_append, List.count_replicate]
  have hmod : n % 60 = m % 60 := by rw [← ha n, ← ha m, htoken]
  have hdiv : n / 60 = m / 60 := by rw [← hc n, ← hc m, htoken]
  omega

theorem session_earned_sample : ∃ session : SessionRow,
    agentTotpLogin.server.store.get .authSessions (23 : Nat) = some session ∧
      (∃ course : Course, history agentTotpLogin.server.log ⟨.authMfaChallenges, (20 : Nat)⟩ = course.events ∧
        course.userId = session.userId ∧ ∃ at', course.ending = .succeeded at' (.totp 33333)) ∧
      ∀ (p id' userId' : Nat) (factor' : Factor),
        Logged agentTotpLogin.server.log p ⟨.authSessions, id'⟩
          (.sessionCreated userId' (some (20, factor'))) → id' = 23 := by
  have hstored : ((agentTotpLogin.server.store.get .authSessions (23 : Nat)).any
      fun row : SessionRow => row.completed == some (20, .totp 33333)) = true := by
    decide +kernel
  obtain ⟨session, hrow, hdone⟩ := (Option.any_eq_true _ _).1 hstored
  exact ⟨session, hrow, session_earned Sample.external Sample.config Sample.server_wf rfl (by decide)
    (by decide) tokensDiffer_sample agentLogin_reachable hrow (eq_of_beq hdone)⟩

end ArcAdmin
