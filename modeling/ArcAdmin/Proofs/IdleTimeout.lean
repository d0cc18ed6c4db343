import ArcAdmin.ReadCommitted.Rules
import ArcAdmin.System
import ArcAdmin.Sample
import Mathlib.Logic.Relation

/-!
# The idle timeout of a session

`auth_context` is two statements: a query that accepts the session, and an update of `last_seen_at`
that is skipped while the stored value is at most a minute old. `Visit` is a run of requests with
one session, statement by statement. A request is accepted when its query is; its update comes later, by
at most a given delay, and in between anything else may happen.

* **`touchedAt_row`** — what the update leaves;
* **`Seen`** — how far the stored value may lag behind the requests that were accepted: a minute for
  those that have touched it;
* **`Opened.bounded`**, **`Opened.kept`** — when each half of the law holds;
* **`Opened.not_bounded`**, **`Opened.not_kept_of_short`**, **`Opened.not_kept_of_late`** — the runs that
  break it otherwise;
* **`idleTimeout_measures`** — the timeout measures inactivity exactly if the session cannot live longer
  than it, or it is longer than two minutes and the updates do not come late.
-/

namespace ArcAdmin

open ReadCommitted
open Repositories.AuthSessions

/-! ## The second statement

The update is a statement of its own on the pool, so it may come after other requests; its `now()`
is the time at which it runs, not that of its request.
-/

/-- The update of `auth_context`, a statement of its own on the pool. -/
def touch (sessionId : Nat) : Db Unit := do
  beginTx
  let _ ← (touchStmt sessionId).exec
  commitTx

/-- **`auth_context` is the query and the update.** -/
theorem authContext_eq (sessionTokenHash : String) : authContext sessionTokenHash = (do
    let s ← poolQuery
    match authContextQuery s sessionTokenHash with
    | none => return none
    | some context => do
      touch context.sessionId
      return some context) := by
  unfold authContext touch
  congr 1
  funext s
  cases authContextQuery s sessionTokenHash with
  | none => rfl
  | some context => simp only [bind_assoc]

/-- The state after the update, whose `now()` is `now`. -/
def touchedAt (sessionId now : Nat) (s : Server Table) : Server Table :=
  { ((touch sessionId).run 0 ⟨none, { s with clock := now }⟩).2.server with clock := s.clock }

/-- The row of the session after the update. -/
def touched (now : Nat) (row : SessionRow) : SessionRow :=
  if row.lastSeenAt + 60 * second < now then { row with lastSeenAt := now } else row

theorem touchStmt_row (sessionId : Nat) (s : Snap) (row : SessionRow) :
    (if (touchStmt sessionId).cond s sessionId row = true then (touchStmt sessionId).set s row
      else row) = touched s.now row := by
  have hcond : (touchStmt sessionId).cond s sessionId row = true ↔
      row.lastSeenAt + 60 * second < s.now := by
    unfold touchStmt
    simp only [beq_self_eq_true, Bool.true_and, decide_eq_true_eq]
  unfold touched
  exact if_congr hcond rfl rfl

/-- The update alone ends, leaves the row of the session with the new time, and no other table changes. -/
theorem touch_ends (sessionId : Nat) (s : Server Table) :
    ∃ tx : Tx Table, Ends 0 (touch sessionId) ⟨none, s⟩ () ⟨none, s.commit 0 tx⟩ ∧
      (tx.view s.store).get .authSessions sessionId =
        (s.store.get .authSessions sessionId).map (touched s.clock) ∧
      ∀ other, other ≠ .authSessions → tx.view s.store other = s.store other := by
  let tx : Tx Table := ⟨s.clock, [], [], []⟩
  have hone : ∀ (snap : Snap) i r, (touchStmt sessionId).cond snap i r = true → i = sessionId := by
    intro snap i r hcond
    simp only [touchStmt, Bool.and_eq_true] at hcond
    exact eq_of_beq hcond.1
  obtain ⟨rows, tx', hends, hrow, hothers⟩ := ends_updateRow (p := 0) (ε := ApiError) hone tx s
  have hvalue : (fun row : Schema.Row Table.authSessions =>
      if (touchStmt sessionId).cond (⟨some tx, s⟩ : Conn Table).snapshot sessionId row = true
      then (touchStmt sessionId).set (⟨some tx, s⟩ : Conn Table).snapshot row
      else row) = touched s.clock := by
    funext row
    exact touchStmt_row sessionId _ row
  rw [hvalue] at hrow
  refine ⟨tx', ?_, hrow, hothers⟩
  exact ends_bind.2 ⟨(), ⟨some tx, s⟩, ends_beginTx.2 rfl, ends_bind.2 ⟨rows, _, hends,
    (ends_commitTx rfl).2 rfl⟩⟩

/-- **What the update leaves.** -/
theorem touchedAt_row (sessionId now : Nat) (s : Server Table) :
    (touchedAt sessionId now s).store.get .authSessions sessionId =
      (s.store.get .authSessions sessionId).map (touched now) := by
  obtain ⟨tx, hends, hrow, -⟩ := touch_ends sessionId { s with clock := now }
  unfold Ends at hends
  unfold touchedAt
  rw [hends]
  exact hrow

/-- The update changes no other table. -/
theorem touchedAt_other (sessionId now : Nat) (s : Server Table) {other : Table}
    (h : other ≠ .authSessions) : (touchedAt sessionId now s).store other = s.store other := by
  obtain ⟨tx, hends, -, hothers⟩ := touch_ends sessionId { s with clock := now }
  unfold Ends at hends
  unfold touchedAt
  rw [hends]
  exact hothers other h

theorem authContext_touchedAt {s : Server Table} {sessionTokenHash : String}
    {context : SessionAuthContext}
    (hquery : authContextQuery (committed s) sessionTokenHash = some context) :
    ((authContext sessionTokenHash).run 0 ⟨none, s⟩).2.server =
      touchedAt context.sessionId s.clock s := by
  obtain ⟨tx, hends, -, -⟩ := touch_ends context.sessionId s
  have hall : Ends 0 (authContext sessionTokenHash) ⟨none, s⟩ (some context)
      ⟨none, s.commit 0 tx⟩ := by
    rw [authContext_eq]
    refine ends_bind.2 ⟨committed s, ⟨none, s⟩, ends_poolQuery.2 ⟨rfl, rfl⟩, ?_⟩
    rw [hquery]
    exact ends_bind.2 ⟨(), _, hends, ends_ret.2 ⟨rfl, rfl⟩⟩
  unfold Ends at hall hends
  unfold touchedAt
  rw [hall, hends]
  rfl

@[simp] theorem touchedAt_clock (sessionId now : Nat) (s : Server Table) :
    (touchedAt sessionId now s).clock = s.clock := rfl

/-! ## Requests with one session

What happens to one session, step by step. What other requests do in between is left open but for
what the protocol of sessions excludes.
-/

/-- What the other requests do: of the session they change `revoked_at` only, and a session that is
gone does not come back. -/
def Elsewhere (id : Nat) (s s' : Server Table) : Prop :=
  s'.clock = s.clock ∧ ∀ row', s'.store.get .authSessions id = some row' →
    ∃ revokedAt, s.store.get .authSessions id = some { row' with revokedAt }

/-- The requests with one session so far: when they were accepted, the latest first and the opening of the
session last, and when those were whose update is still to come. -/
structure Visits where
  server : Server Table
  latest : Nat
  earlier : List Nat
  waiting : List Nat

namespace Visits

def start (s : Server Table) : Visits := ⟨s, s.clock, [], []⟩

/-- When requests were accepted, the latest first. -/
def accepted (v : Visits) : List Nat := v.latest :: v.earlier

def wait (v : Visits) (d : Nat) : Visits :=
  { v with server := { v.server with clock := v.server.clock + d } }

/-- The query of a request accepts the session. -/
def check (v : Visits) : Visits :=
  { v with latest := v.server.clock, earlier := v.accepted, waiting := v.server.clock :: v.waiting }

/-- The update of the request that was accepted at `checkedAt`; its `now()` is `now`. -/
def touch (id : Nat) (v : Visits) (checkedAt now : Nat) : Visits :=
  { v with server := touchedAt id now v.server, waiting := v.waiting.erase checkedAt }

/-- The client has never waited longer than half of the timeout, up to now. -/
def Brisk (v : Visits) (timeout : Nat) : Prop :=
  (v.server.clock :: v.accepted).IsChain fun later earlier => 2 * (later - earlier) ≤ timeout

end Visits

/-- One step of the requests with a session: the updates come at most `delay` after their queries. -/
inductive Visit (delay id : Nat) : Visits → Visits → Prop
  | wait (v : Visits) (d : Nat) : (∀ c ∈ v.waiting, v.server.clock + d ≤ c + delay) →
      Visit delay id v (v.wait d)
  | elsewhere (v : Visits) (s : Server Table) : Elsewhere id v.server s →
      Visit delay id v { v with server := s }
  | check (v : Visits) (session : SessionRow) : Accepted v.server id session →
      Visit delay id v v.check
  | touch (v : Visits) (checkedAt now : Nat) : checkedAt ∈ v.waiting → checkedAt ≤ now →
      now ≤ v.server.clock → Visit delay id v (v.touch id checkedAt now)

abbrev Visited (delay id : Nat) : Visits → Visits → Prop := Relation.ReflTransGen (Visit delay id)

/-- **`auth_context` alone is a check and its update**, at once. -/
theorem authContext_visited {delay : Nat} {v : Visits} {sessionTokenHash : String}
    {context : SessionAuthContext}
    (hquery : authContextQuery (committed v.server) sessionTokenHash = some context) :
    Visited delay context.sessionId v
      { server := ((authContext sessionTokenHash).run 0 ⟨none, v.server⟩).2.server
        latest := v.server.clock
        earlier := v.accepted
        waiting := v.waiting } := by
  have hcheck : ∃ session, Accepted v.server context.sessionId session := by
    obtain ⟨e, he, hfound⟩ := List.exists_of_findSome?_eq_some hquery
    split at hfound
    · obtain ⟨user, huser, hsome⟩ := Option.bind_eq_some_iff.1 hfound
      split at hsome
      · rename_i hacc
        cases hsome
        exact ⟨e.2, Store.mem_rows.1 he, user, huser, hacc⟩
      · cases hsome
    · cases hfound
  obtain ⟨session, hacc⟩ := hcheck
  have htouch : Visit delay context.sessionId v.check
      (v.check.touch context.sessionId v.server.clock v.server.clock) :=
    .touch v.check v.server.clock v.server.clock List.mem_cons_self le_rfl le_rfl
  have hlast : v.check.touch context.sessionId v.server.clock v.server.clock =
      ⟨((authContext sessionTokenHash).run 0 ⟨none, v.server⟩).2.server, v.server.clock, v.accepted,
        v.waiting⟩ := by
    rw [authContext_touchedAt hquery]
    show Visits.mk _ _ _ ((v.server.clock :: v.waiting).erase v.server.clock) = _
    rw [List.erase_cons_head]
    rfl
  rw [← hlast]
  exact (Relation.ReflTransGen.single (Visit.check v session hacc)).tail htouch

/-- No request is accepted `T` or more after the latest one that was. -/
def Bounded (delay id : Nat) (v₀ : Visits) : Prop :=
  ∀ v row, Visited delay id v₀ v → Accepted v.server id row →
    v.server.clock < v.latest + row.idleTimeoutSecs * second

/-- No request of a client that never waits longer than `T / 2` is rejected for idleness before the
session expires. -/
def KeepsBrisk (delay id : Nat) (v₀ : Visits) : Prop :=
  ∀ v row, Visited delay id v₀ v → v.server.store.get .authSessions id = some row →
    v.Brisk (row.idleTimeoutSecs * second) → v.server.clock < row.expiresAt →
      v.server.clock < row.lastSeenAt + row.idleTimeoutSecs * second

/-- **The idle timeout measures inactivity**, over every run from `v₀`: requests are dated at the time
at which they were accepted. -/
structure MeasuresInactivity (delay id : Nat) (v₀ : Visits) : Prop where
  bounded : Bounded delay id v₀
  kept : KeepsBrisk delay id v₀

/-! ## The stored time and the requests

The invariant of a run. Whatever the order of the updates, the stored time only grows, and each
update leaves a time at most a minute before its own request.
-/

/-- **How far the stored time may lag.** Every request that has made its update was at most a minute
later than the stored time; the others wait for no longer than the delay. -/
structure Seen (delay id : Nat) (session : SessionRow) (v : Visits) : Prop where
  past : v.latest ≤ v.server.clock
  opened : session.lastSeenAt ∈ v.accepted
  since : session.lastSeenAt ≤ v.latest
  due : ∀ c ∈ v.waiting, c ≤ v.latest ∧ v.server.clock ≤ c + delay
  row : ∀ row, v.server.store.get .authSessions id = some row →
    row.idleTimeoutSecs = session.idleTimeoutSecs ∧ row.expiresAt = session.expiresAt ∧
      session.lastSeenAt ≤ row.lastSeenAt ∧ row.lastSeenAt ≤ v.latest + delay ∧
      (row.lastSeenAt = session.lastSeenAt ∨ session.lastSeenAt + 60 * second < row.lastSeenAt) ∧
      ∀ t ∈ v.accepted, t ∈ v.waiting ∨ t ≤ row.lastSeenAt + 60 * second

/-- **Every step keeps the lag.** -/
theorem Visit.seen {delay id : Nat} {session : SessionRow} {v v' : Visits}
    (hstep : Visit delay id v v') (hseen : Seen delay id session v) : Seen delay id session v' := by
  have hpast := hseen.past
  have hsince := hseen.since
  cases hstep with
  | wait d hdue =>
    refine ⟨?_, hseen.opened, hsince, fun c hc => ⟨(hseen.due c hc).1, hdue c hc⟩, hseen.row⟩
    show v.latest ≤ v.server.clock + d
    omega
  | elsewhere s helse =>
    refine ⟨?_, hseen.opened, hsince, fun c hc => ?_, fun row' hrow' => ?_⟩
    · show v.latest ≤ s.clock
      rw [helse.1]
      exact hpast
    · show c ≤ v.latest ∧ s.clock ≤ c + delay
      rw [helse.1]
      exact hseen.due c hc
    · obtain ⟨revokedAt, hrow⟩ := helse.2 row' hrow'
      have hsame := hseen.row _ hrow
      exact hsame
  | check _ _ =>
    refine ⟨le_rfl, List.mem_cons_of_mem _ hseen.opened, by show _ ≤ v.server.clock; omega,
      fun c hc => ?_, fun row hrow => ?_⟩
    · show c ≤ v.server.clock ∧ v.server.clock ≤ c + delay
      rcases List.mem_cons.1 hc with rfl | hold
      · omega
      · have hdue := hseen.due c hold
        omega
    · obtain ⟨hidle, hexp, hfirst, hlast, hfresh, hlag⟩ := hseen.row row hrow
      refine ⟨hidle, hexp, hfirst, by show _ ≤ v.server.clock + delay; omega, hfresh, fun t ht => ?_⟩
      rcases List.mem_cons.1 ht with rfl | hold
      · exact .inl List.mem_cons_self
      · exact (hlag t hold).imp_left (List.mem_cons_of_mem _)
  | touch checkedAt now hmem hle hnow =>
    obtain ⟨hchecked, hdue⟩ := hseen.due checkedAt hmem
    refine ⟨hpast, hseen.opened, hsince, fun c hc => hseen.due c (List.mem_of_mem_erase hc),
      fun row' hrow' => ?_⟩
    have hrow : (touchedAt id now v.server).store.get .authSessions id = some row' := hrow'
    rw [touchedAt_row] at hrow
    obtain ⟨row, hget, rfl⟩ := Option.map_eq_some_iff.1 hrow
    obtain ⟨hidle, hexp, hfirst, hlast, hfresh, hlag⟩ := hseen.row row hget
    -- either way the stored time is then at most a minute before `now`
    have hcovered : row.lastSeenAt ≤ (touched now row).lastSeenAt ∧
        now ≤ (touched now row).lastSeenAt + 60 * second := by
      unfold touched
      split
      · exact ⟨by show _ ≤ now; omega, by show now ≤ now + _; omega⟩
      · omega
    have hlag' : ∀ t ∈ (v.touch id checkedAt now).accepted, t ∈ (v.touch id checkedAt now).waiting ∨
        t ≤ (touched now row).lastSeenAt + 60 * second := by
      intro t ht
      rcases hlag t ht with hwait | hseen
      · by_cases hself : t = checkedAt
        · exact .inr (by omega)
        · exact .inl ((List.mem_erase_of_ne hself).2 hwait)
      · exact .inr (by omega)
    refine ⟨?_, ?_, by omega, ?_, ?_, hlag'⟩
    · unfold touched
      split <;> exact hidle
    · unfold touched
      split <;> exact hexp
    · show _ ≤ v.latest + delay
      unfold touched
      split
      · show now ≤ _
        omega
      · exact hlast
    · unfold touched
      split
      · exact .inr (by show _ < now; omega)
      · exact hfresh

theorem Visited.seen {delay id : Nat} {session : SessionRow} {v v' : Visits}
    (hrun : Visited delay id v v') (hseen : Seen delay id session v) : Seen delay id session v' := by
  induction hrun with
  | refl => exact hseen
  | tail _ hstep ih => exact hstep.seen ih

/-- A session that was opened now. -/
def Opened (s : Server Table) (id : Nat) (session : SessionRow) : Prop :=
  Accepted s id session ∧ session.createdAt = s.clock ∧ session.lastSeenAt = s.clock

theorem Opened.seen {s : Server Table} {id : Nat} {session : SessionRow} (delay : Nat)
    (hopen : Opened s id session) : Seen delay id session (Visits.start s) := by
  obtain ⟨hacc, hcreated, hlast⟩ := hopen
  refine ⟨le_rfl, List.mem_singleton.2 hlast, hlast.le, fun _ hc => absurd hc List.not_mem_nil,
    fun row hrow => ?_⟩
  have hsame : row = session := Option.some.inj (hrow.symm.trans hacc.1)
  subst hsame
  refine ⟨rfl, rfl, le_rfl, ?_, .inl rfl, fun t ht => .inr ?_⟩
  · show row.lastSeenAt ≤ s.clock + delay
    omega
  · have ht' : t = s.clock := List.mem_singleton.1 ht
    omega

/-- **A brisk client is not far ahead of the stored time**: going back from the latest request, the first
that has made its update is at most a minute later than the stored time, and the one after it waits. -/
theorem clock_le_of_brisk {waiting : List Nat} {clock delay timeout stamp : Nat}
    (hdue : ∀ c ∈ waiting, clock ≤ c + delay) (earlier : List Nat) (latest : Nat)
    (hbrisk : (latest :: earlier).IsChain fun later earlier => 2 * (later - earlier) ≤ timeout)
    (hlag : ∀ t ∈ latest :: earlier, t ∈ waiting ∨ t ≤ stamp)
    (hopened : ∃ t ∈ latest :: earlier, t ≤ stamp)
    (hclock : 2 * clock ≤ 2 * (latest + delay) + timeout) :
    2 * clock ≤ 2 * (stamp + delay) + timeout := by
  induction earlier generalizing latest with
  | nil =>
    obtain ⟨t, ht, hle⟩ := hopened
    have hlatest : t = latest := List.mem_singleton.1 ht
    omega
  | cons before earlier ih =>
    by_cases hseen : latest ≤ stamp
    · omega
    · -- the latest request waits, so that it is recent
      have hwait : latest ∈ waiting := (hlag latest List.mem_cons_self).resolve_right hseen
      have hrecent := hdue latest hwait
      obtain ⟨hgap, hbrisk'⟩ := List.isChain_cons_cons.1 hbrisk
      refine ih before hbrisk' (fun t ht => hlag t (List.mem_cons_of_mem _ ht)) ?_ (by omega)
      obtain ⟨t, ht, hle⟩ := hopened
      rcases List.mem_cons.1 ht with rfl | hold
      · exact absurd hle hseen
      · exact ⟨t, hold, hle⟩

/-! ## Accepted sessions

Whether a session is accepted depends on time in two ways only: it may have expired, or been idle
for too long.
-/

theorem Accepted.not_idle {s : Server Table} {id : Nat} {row : SessionRow}
    (hacc : Accepted s id row) : s.clock < row.lastSeenAt + row.idleTimeoutSecs * second := by
  obtain ⟨-, user, -, hby⟩ := hacc
  simp only [acceptedBy, Bool.and_eq_true, decide_eq_true_eq] at hby
  exact hby.1.1.1.1.2

theorem Accepted.unexpired {s : Server Table} {id : Nat} {row : SessionRow}
    (hacc : Accepted s id row) : s.clock < row.expiresAt := by
  obtain ⟨-, user, -, hby⟩ := hacc
  simp only [acceptedBy, Bool.and_eq_true, decide_eq_true_eq] at hby
  exact hby.1.1.1.1.1.2

/-- An accepted session is accepted at every later moment at which it has neither expired nor been
idle for too long, if nothing but its stored time has changed. -/
theorem Accepted.again {s s' : Server Table} {id : Nat} {row : SessionRow}
    (hacc : Accepted s id row) (lastSeenAt : Nat)
    (hget : s'.store.get .authSessions id = some { row with lastSeenAt })
    (hothers : ∀ other, other ≠ Table.authSessions → s'.store other = s.store other)
    (hexp : s'.clock < row.expiresAt)
    (hidle : s'.clock < lastSeenAt + row.idleTimeoutSecs * second) :
    Accepted s' id { row with lastSeenAt } := by
  obtain ⟨-, user, huser, hby⟩ := hacc
  refine ⟨hget, user, ?_, ?_⟩
  · unfold Store.get at huser ⊢
    rw [hothers .users (by decide)]
    exact huser
  · have hroles : Repositories.Permissions.activeRolesOf (committed s') row.userId =
        Repositories.Permissions.activeRolesOf (committed s) row.userId := by
      unfold Repositories.Permissions.activeRolesOf
      show (s'.store.rows .roles).filter (fun e => e.2.isActive &&
        (s'.store.get .userRoles (row.userId, e.1)).isSome) = _
      unfold Store.rows Store.get
      rw [hothers .roles (by decide), hothers .userRoles (by decide)]
      rfl
    have htotp : totpEnabled (committed s') row.userId = totpEnabled (committed s) row.userId := by
      unfold totpEnabled
      show (s'.store.get .userMfaSettings row.userId).any _ = _
      unfold Store.get
      rw [hothers .userMfaSettings (by decide)]
      rfl
    simp only [acceptedBy, holdsSuperAdmin, Bool.and_eq_true, decide_eq_true_eq] at hby ⊢
    obtain ⟨⟨⟨⟨⟨⟨hrev, -⟩, -⟩, hver⟩, hdel⟩, hstatus⟩, hadmin⟩ := hby
    rw [hroles, htotp]
    exact ⟨⟨⟨⟨⟨⟨hrev, hexp⟩, hidle⟩, hver⟩, hdel⟩, hstatus⟩, hadmin⟩

/-! ## Exactly when

The three ways in which the law fails, each as a run, and the proof that it holds otherwise.
-/

section Exactly

variable {s : Server Table} {id : Nat} {session : SessionRow}

/-- The session is accepted after a while, if it has neither expired nor been idle for too long. -/
theorem Opened.accepted_later (hopen : Opened s id session) {d : Nat}
    (hexp : s.clock + d < session.expiresAt) (hidle : d < session.idleTimeoutSecs * second) :
    Accepted ((Visits.start s).wait d).server id session := by
  obtain ⟨hacc, -, hlast⟩ := hopen
  refine hacc.again session.lastSeenAt hacc.1 (fun _ _ => rfl) hexp ?_
  show s.clock + d < session.lastSeenAt + session.idleTimeoutSecs * second
  omega

/-- A first request, whose update comes after `late`. -/
def Visits.first (id : Nat) (s : Server Table) (d late : Nat) : Visits :=
  ((((Visits.start s).wait d).check).wait late).touch id (s.clock + d) (s.clock + d + late)

theorem Opened.first (hopen : Opened s id session) {delay d late : Nat} (hlate : late ≤ delay)
    (hexp : s.clock + d < session.expiresAt) (hidle : d < session.idleTimeoutSecs * second) :
    Visited delay id (Visits.start s) (Visits.first id s d late) := by
  have hacc := hopen.accepted_later hexp hidle
  refine (((Relation.ReflTransGen.single (.wait _ d fun _ hc => absurd hc List.not_mem_nil)).tail
    (.check _ session hacc)).tail (.wait _ late fun c hc => ?_)).tail
    (.touch _ _ _ List.mem_cons_self (Nat.le_add_right _ _) le_rfl)
  have hself : c = s.clock + d := List.mem_singleton.1 hc
  show s.clock + d + late ≤ c + delay
  omega

theorem Opened.first_row (hopen : Opened s id session) (d late : Nat) :
    (Visits.first id s d late).server.store.get .authSessions id =
      some (touched (s.clock + d + late) session) := by
  show (touchedAt id (s.clock + d + late) (((Visits.start s).wait d).check.wait late).server).store.get
    .authSessions id = _
  rw [touchedAt_row]
  show (s.store.get .authSessions id).map _ = _
  rw [hopen.1.1]
  rfl

theorem Visits.wait_store (v : Visits) (d : Nat) : (v.wait d).server.store = v.server.store := rfl

theorem Visits.check_server (v : Visits) : v.check.server = v.server := rfl

theorem Visits.wait_clock (v : Visits) (d : Nat) : (v.wait d).server.clock = v.server.clock + d := rfl

theorem Visits.first_clock (id : Nat) (s : Server Table) (d late : Nat) :
    (Visits.first id s d late).server.clock = s.clock + d + late := rfl

/-- After its update nothing waits any more. -/
theorem Visits.first_waiting (id : Nat) (s : Server Table) (d late : Nat) :
    (Visits.first id s d late).waiting = [] := List.erase_cons_head ..

/-- What else is stored stays. -/
theorem Visits.first_other (id : Nat) (s : Server Table) (d late : Nat) {other : Table}
    (h : other ≠ .authSessions) : (Visits.first id s d late).server.store other = s.store other :=
  touchedAt_other id _ _ h

/-- A first request within a minute leaves the session as it is. -/
theorem Opened.first_early (hopen : Opened s id session) {d : Nat} (hd : d ≤ 60 * second) :
    (Visits.first id s d 0).server.store.get .authSessions id = some session := by
  have hlast := hopen.2.2
  rw [hopen.first_row, touched, if_neg (by omega)]

/-- **No request is accepted too late**, if no update comes late that is not skipped. -/
theorem Opened.bounded {delay : Nat} (hopen : Opened s id session)
    (h : delay = 0 ∨ session.expiresAt ≤ session.createdAt + (60 * second + 1 - delay) +
      session.idleTimeoutSecs * second) : Bounded delay id (Visits.start s) := by
  have hcreated := hopen.2.1
  have hlast := hopen.2.2
  intro v row hrun hacc
  have hseen := hrun.seen (hopen.seen delay)
  obtain ⟨hidle, hexp, hfirst, hlate, hfresh, -⟩ := hseen.row row hacc.1
  have hnow := hacc.not_idle
  have hend := hacc.unexpired
  have hsince := hseen.since
  rw [hidle] at hnow ⊢
  omega

/-- **A late update lets a late request in**: it writes a time that is later than that of its own
request. -/
theorem Opened.not_bounded {delay : Nat} (hopen : Opened s id session) (hdelay : 0 < delay)
    (hlong : 60 * second < session.idleTimeoutSecs * second)
    (hle : delay ≤ session.idleTimeoutSecs * second)
    (hexp : session.createdAt + (60 * second + 1 - delay) + session.idleTimeoutSecs * second <
      session.expiresAt) : ¬Bounded delay id (Visits.start s) := by
  have hcreated := hopen.2.1
  have hlast := hopen.2.2
  intro hbounded
  -- the earliest request whose update is not skipped, if it is late
  obtain ⟨d, hd⟩ : ∃ d, d = 60 * second + 1 - delay := ⟨_, rfl⟩
  rw [← hd] at hexp
  let v := (Visits.first id s d delay).wait (session.idleTimeoutSecs * second - delay)
  have hclock : v.server.clock =
      s.clock + d + delay + (session.idleTimeoutSecs * second - delay) := by
    rw [Visits.wait_clock, Visits.first_clock]
  have hrun : Visited delay id (Visits.start s) v := by
    refine (hopen.first le_rfl (by omega) (by omega)).tail (.wait _ _ fun c hc => ?_)
    rw [Visits.first_waiting] at hc
    cases hc
  have hrow : v.server.store.get .authSessions id =
      some { session with lastSeenAt := s.clock + d + delay } := by
    rw [Visits.wait_store, hopen.first_row, touched, if_pos (by omega)]
  have hacc : Accepted v.server id { session with lastSeenAt := s.clock + d + delay } := by
    refine hopen.1.again _ hrow (fun other hne => ?_) (by omega) (by omega)
    rw [Visits.wait_store]
    exact Visits.first_other id s d delay hne
  have hbad : v.server.clock < s.clock + d + session.idleTimeoutSecs * second :=
    hbounded v { session with lastSeenAt := s.clock + d + delay } hrun hacc
  omega

/-- **A brisk client is not rejected**, if the timeout is longer than two minutes and two delays. -/
theorem Opened.kept {delay : Nat} (hopen : Opened s id session)
    (h : 120 * second + 2 * delay < session.idleTimeoutSecs * second ∨
      session.expiresAt ≤ session.createdAt + session.idleTimeoutSecs * second) :
    KeepsBrisk delay id (Visits.start s) := by
  have hcreated := hopen.2.1
  have hlast := hopen.2.2
  intro v row hrun hrow hbrisk hunexpired
  have hseen := hrun.seen (hopen.seen delay)
  obtain ⟨hidle, hexp, hfirst, -, -, hlag⟩ := hseen.row row hrow
  have hopened : ∃ t ∈ v.accepted, t ≤ row.lastSeenAt + 60 * second :=
    ⟨session.lastSeenAt, hseen.opened, by omega⟩
  obtain ⟨hgap, hbrisk'⟩ := List.isChain_cons_cons.1 hbrisk
  have hclock := clock_le_of_brisk (fun c hc => (hseen.due c hc).2) v.earlier v.latest hbrisk' hlag
    hopened (by omega)
  rw [hidle] at hclock ⊢
  omega

/-- A client that waits before its first request, whose update is at once, and then again. -/
theorem Visits.first_brisk {id : Nat} {s : Server Table} {d e timeout : Nat} (hd : 2 * d ≤ timeout)
    (he : 2 * e ≤ timeout) : ((Visits.first id s d 0).wait e).Brisk timeout := by
  have hchain : [s.clock + d + 0 + e, s.clock + d, s.clock].IsChain fun later earlier =>
      2 * (later - earlier) ≤ timeout := by
    refine List.isChain_cons_cons.2 ⟨?_, List.isChain_cons_cons.2 ⟨?_, List.isChain_singleton _⟩⟩
    · omega
    · omega
  exact hchain

/-- A timeout is an even number of microseconds. -/
theorem half_timeout (session : SessionRow) : ∃ half, session.idleTimeoutSecs * second = 2 * half := by
  refine ⟨session.idleTimeoutSecs * 500000, ?_⟩
  unfold second
  omega

/-- **A brisk client is rejected** where the timeout is two minutes or less: two waits of `T / 2`, with
one request between them. -/
theorem Opened.not_kept_of_short {delay : Nat} (hopen : Opened s id session)
    (hshort : session.idleTimeoutSecs ≤ 120)
    (hexp : session.createdAt + session.idleTimeoutSecs * second < session.expiresAt) :
    ¬KeepsBrisk delay id (Visits.start s) := by
  have hcreated := hopen.2.1
  have hlast := hopen.2.2
  have hpos := hopen.1.not_idle
  intro hkept
  obtain ⟨half, htwo⟩ := half_timeout session
  have hminute : half ≤ 60 * second := by
    have hle : session.idleTimeoutSecs * second ≤ 120 * second := Nat.mul_le_mul_right second hshort
    omega
  let v := (Visits.first id s half 0).wait half
  have hclock : v.server.clock = s.clock + half + 0 + half := by
    rw [Visits.wait_clock, Visits.first_clock]
  have hrun : Visited delay id (Visits.start s) v := by
    refine (hopen.first (Nat.zero_le _) (by omega) (by omega)).tail (.wait _ _ fun c hc => ?_)
    rw [Visits.first_waiting] at hc
    cases hc
  have hbrisk : v.Brisk (session.idleTimeoutSecs * second) :=
    Visits.first_brisk (by omega) (by omega)
  have hrow : v.server.store.get .authSessions id = some session := by
    rw [Visits.wait_store]
    exact hopen.first_early hminute
  have hbad := hkept v session hrun hrow hbrisk (by omega)
  omega

/-- **A brisk client is rejected** while a request waits for its update: a request after a minute, whose
update is skipped, another one `T / 2` later, and another one before that has made its update. -/
theorem Opened.not_kept_of_late {delay : Nat} (hopen : Opened s id session)
    (hlong : 120 < session.idleTimeoutSecs)
    (hlate : session.idleTimeoutSecs * second ≤ 120 * second + 2 * delay)
    (hexp : session.createdAt + session.idleTimeoutSecs * second < session.expiresAt) :
    ¬KeepsBrisk delay id (Visits.start s) := by
  have hcreated := hopen.2.1
  have hlast := hopen.2.2
  intro hkept
  obtain ⟨minute, hminute⟩ : ∃ minute, minute = 60 * second := ⟨_, rfl⟩
  obtain ⟨half, htwo⟩ := half_timeout session
  have hhalf : minute < half := by
    have hpos : 0 < second := by decide
    have hlt : 120 * second < session.idleTimeoutSecs * second := Nat.mul_lt_mul_of_pos_right hlong hpos
    omega
  let v₁ := (Visits.first id s minute 0).wait half
  let v₂ := v₁.check.wait (half - minute)
  have hclock₁ : v₁.server.clock = s.clock + minute + 0 + half := by
    rw [Visits.wait_clock, Visits.first_clock]
  have hclock₂ : v₂.server.clock = v₁.server.clock + (half - minute) := by
    rw [Visits.wait_clock, Visits.check_server]
  have hrow : v₁.server.store.get .authSessions id = some session := by
    rw [Visits.wait_store]
    exact hopen.first_early hminute.le
  have hrow₂ : v₂.server.store.get .authSessions id = some session := by
    rw [Visits.wait_store, Visits.check_server]
    exact hrow
  have hacc : Accepted v₁.server id session := by
    refine hopen.1.again session.lastSeenAt hrow (fun other hne => ?_) (by omega)
      (by omega)
    rw [Visits.wait_store]
    exact Visits.first_other id s minute 0 hne
  have hrun : Visited delay id (Visits.start s) v₂ := by
    refine (((hopen.first (Nat.zero_le _) (by omega) (by omega)).tail
      (.wait _ half fun c hc => ?_)).tail (.check v₁ session hacc)).tail
      (.wait _ (half - minute) fun c hc => ?_)
    · rw [Visits.first_waiting] at hc
      cases hc
    · have hwaiting : c ∈ v₁.server.clock :: (Visits.first id s minute 0).waiting := hc
      rw [Visits.first_waiting, List.mem_singleton] at hwaiting
      show v₁.server.clock + (half - minute) ≤ c + delay
      omega
  have hbrisk : v₂.Brisk (session.idleTimeoutSecs * second) := by
    refine List.isChain_cons_cons.2 ⟨?_, List.isChain_cons_cons.2 ⟨?_, List.isChain_cons_cons.2
      ⟨?_, List.isChain_singleton _⟩⟩⟩
    · show 2 * (v₂.server.clock - v₁.server.clock) ≤ _
      omega
    · show 2 * (v₁.server.clock - (s.clock + minute)) ≤ _
      omega
    · show 2 * (s.clock + minute - s.clock) ≤ _
      omega
  have hbad := hkept v₂ session hrun hrow₂ hbrisk (by omega)
  omega

/-- **The idle timeout measures inactivity exactly if** the session cannot live longer than the timeout,
or the timeout is longer than two minutes (and twice the delay of the updates) and no update comes late
that is not skipped before the session ends. -/
theorem idleTimeout_measures (delay : Nat) (hopen : Opened s id session) :
    MeasuresInactivity delay id (Visits.start s) ↔
      session.expiresAt ≤ session.createdAt + session.idleTimeoutSecs * second ∨
        120 * second + 2 * delay < session.idleTimeoutSecs * second ∧
          (delay = 0 ∨ session.expiresAt ≤ session.createdAt + (60 * second + 1 - delay) +
            session.idleTimeoutSecs * second) := by
  have hcreated := hopen.2.1
  have hsecond : second = 1000000 := rfl
  constructor
  · intro hmeasures
    by_contra hno
    push Not at hno
    obtain ⟨hexp, hlate⟩ := hno
    by_cases hshort : session.idleTimeoutSecs ≤ 120
    · exact hopen.not_kept_of_short hshort hexp hmeasures.kept
    by_cases hlong : 120 * second + 2 * delay < session.idleTimeoutSecs * second
    · obtain ⟨hdelay, hend⟩ := hlate hlong
      exact hopen.not_bounded (by omega) (by omega) (by omega) hend hmeasures.bounded
    · exact hopen.not_kept_of_late (by omega) (by omega) hexp hmeasures.kept
  · intro h
    exact ⟨hopen.bounded (by omega), hopen.kept (by omega)⟩

end Exactly

/-! ## A sample session

The default timeout, which measures inactivity, and two sessions for which it does not.
-/

/-- A session of `clerk` that is opened now, with an idle timeout of `T` seconds and a day to
live. -/
def openedSession (T : Nat) : SessionRow where
  userId := 12
  sessionTokenHash := Sample.token 20 0
  csrfTokenHash := Sample.token 20 1
  tokenVersion := 0
  idleTimeoutSecs := T
  persistent := false
  expiresAt := Sample.server.clock + day
  lastSeenAt := Sample.server.clock
  revokedAt := none
  createdAt := Sample.server.clock
  checkedAt := Sample.server.clock
  readAt := 0
  completed := none
  later := 0

def openedServer (T : Nat) : Server Table :=
  { Sample.server with
    store := Sample.server.store.set .authSessions (20 : Nat) (some (openedSession T)) }

def openedClerk : UserRow where
  username := "clerk"
  passwordHash := "old password of clerk"
  displayName := "clerk"
  email := none
  status := "active"
  organizationId := 1
  departmentId := none
  tokenVersion := 0
  lastLoginAt := none
  createdAt := 0
  updatedAt := 0
  deletedAt := none

theorem openedServer_opened {T : Nat}
    (hby : acceptedBy (committed (openedServer T)) (openedSession T) openedClerk = true) :
    Opened (openedServer T) 20 (openedSession T) := by
  have hget : (openedServer T).store.get .authSessions (20 : Nat) = some (openedSession T) :=
    Store.get_set_self Sample.server.store .authSessions (20 : Nat) (some (openedSession T))
  exact ⟨⟨hget, openedClerk, rfl, hby⟩, rfl, rfl⟩

/-- With the default of half an hour. -/
theorem idleTimeout_measures_default :
    Opened (openedServer 1800) 20 (openedSession 1800) ∧
      MeasuresInactivity 0 20 (Visits.start (openedServer 1800)) := by
  have hopen : Opened (openedServer 1800) 20 (openedSession 1800) :=
    openedServer_opened (by decide +kernel)
  exact ⟨hopen, (idleTimeout_measures 0 hopen).2 (.inr ⟨by decide, .inl rfl⟩)⟩

/-- **A client that comes back every minute is rejected for idleness**, where the timeout is two
minutes. -/
theorem idleTimeout_early :
    Opened (openedServer 120) 20 (openedSession 120) ∧
      ¬MeasuresInactivity 0 20 (Visits.start (openedServer 120)) := by
  have hopen : Opened (openedServer 120) 20 (openedSession 120) :=
    openedServer_opened (by decide +kernel)
  refine ⟨hopen, fun hmeasures => hopen.not_kept_of_short le_rfl ?_ hmeasures.kept⟩
  show Sample.server.clock + 120 * second < Sample.server.clock + day
  decide

/-- **A request is accepted more than half an hour after the one before it**, whose update has come twenty
seconds late. -/
theorem idleTimeout_late :
    ¬MeasuresInactivity (20 * second) 20 (Visits.start (openedServer 1800)) := by
  have hopen : Opened (openedServer 1800) 20 (openedSession 1800) :=
    openedServer_opened (by decide +kernel)
  refine fun hmeasures => hopen.not_bounded (by decide) (by decide) (by decide) ?_ hmeasures.bounded
  show Sample.server.clock + (60 * second + 1 - 20 * second) + 1800 * second <
    Sample.server.clock + day
  decide

end ArcAdmin
