import ArcAdmin.Proofs.Logins
import ArcAdmin.Proofs.Outside
import ArcAdmin.ReadCommitted.Duties
import ArcAdmin.ReadCommitted.Fate
import ArcAdmin.ReadCommitted.Script
import ArcAdmin.ReadCommitted.Sweep
import ArcAdmin.Sample

/-!
# Passkey revocation

`finish_passkey_authentication` reads the passkeys of the user, commits the answer to its challenge, and
opens the session in a further transaction. `revoke_passkey` deletes the passkey and revokes the sessions
that its statement sees. Two interleavings let a session escape: a revocation that is committed between
the reading of the passkeys and the commit of the session, and a session that is committed between the
snapshot of the revoking `UPDATE` and the commit of the revocation.

* **`OpensInTime`**, **`RevokesInTime`** — neither of them happens;
* **`Listed`** — a passkey was registered for its user when the passkeys were listed, and it is still, or
  its revocation has been committed since;
* **`requests_revoke`** — a session that is opened with a passkey is opened with one that was listed, and
  whoever removes a passkey has revoked every session of its user that its statement could see;
* **`passkey_revoked`** — where no session escapes, the revocation of a passkey is final.
-/

namespace ArcAdmin

open ReadCommitted
open Prog.All

/-- The passkey that the login of a session was completed with. -/
def SessionRow.passkey (row : SessionRow) : Option Nat :=
  row.completed.bind fun e =>
    match e.2 with
    | .passkey id _ => some id
    | _ => none

/-! ## What may come in between

Both conditions look at the journal behind a point that the event of the transaction names: what
stands there was committed in between.
-/

/-- The session that the event tells of was opened for a user with a passkey; the last number is how much
of the journal had been written when the passkeys of the user were listed. -/
def Event.opensWith? : Event → Option (Nat × Nat × Nat)
  | .sessionCreated userId (some (_, .passkey passkeyId listedAsOf)) =>
    some (userId, passkeyId, listedAsOf)
  | _ => none

/-- The user whose new session the event tells of. -/
def Event.opensFor? : Event → Option Nat
  | .sessionCreated userId _ => some userId
  | _ => none

/-- The user and the passkey whose revocation the event tells of, and how much of the journal had been
written at the snapshot of the `UPDATE` that revokes the sessions. -/
def Event.revokes? : Event → Option (Nat × Nat × Nat)
  | .passkeyRevoked userId passkeyId revokedAsOf => some (userId, passkeyId, revokedAsOf)
  | _ => none

/-- **No passkey is revoked while a login with it is on its way**: between the reading of the passkeys
and the commit of the session that is opened with one of them. -/
def OpensInTime (c : Conn Table) : Prop :=
  ∀ n ∈ c.notes, ∀ o ∈ n.2.opensWith?.toList, ∀ e ∈ c.server.log.drop o.2.2,
    ∀ r ∈ e.ev.revokes?.toList, r.2.1 ≠ o.2.1

/-- **No session of the user is opened while a passkey of the user is being revoked**: between the
snapshot of the `UPDATE` that revokes the sessions and the commit of the revocation. -/
def RevokesInTime (c : Conn Table) : Prop :=
  ∀ n ∈ c.notes, ∀ r ∈ n.2.revokes?.toList, ∀ e ∈ c.server.log.drop r.2.2,
    ∀ u ∈ e.ev.opensFor?.toList, u ≠ r.1

/-- No session escapes. -/
def NoEscape (c : Conn Table) : Prop := OpensInTime c ∧ RevokesInTime c

instance : DecidablePred NoEscape := fun c => by
  unfold NoEscape OpensInTime RevokesInTime
  infer_instance

/-! ## Sessions and passkeys

What a login and a revocation know of the passkeys and of the sessions of their user.
-/

/-- How sessions come to be stored: they keep their user and the factor that they were opened with, and
once they are revoked they stay revoked. -/
def sessionBirths : Origin (T := Table) .authSessions where
  later r₀ r := SessionRow.userId r = SessionRow.userId r₀ ∧
    SessionRow.completed r = SessionRow.completed r₀ ∧
    ((SessionRow.revokedAt r₀).isSome → (SessionRow.revokedAt r).isSome)
  refl _ := ⟨rfl, rfl, id⟩
  trans h h' := ⟨h'.1.trans h.1, h'.2.1.trans h.2.1, fun hr => h'.2.2 (h.2.2 hr)⟩
  born r e := e = .sessionCreated (SessionRow.userId r) (SessionRow.completed r)
  born_later := by
    rintro r₀ r _ ⟨huser, hcompleted, _⟩ rfl
    rw [huser, hcompleted]
  step := by
    intro id old new evs hok
    cases old with
    | none =>
      obtain ⟨_, hevs⟩ : sessionProtocol none (some new) evs := hok
      exact .inr ⟨_, by rw [hevs]; exact List.mem_singleton_self _, rfl⟩
    | some r =>
      obtain ⟨_, hnew, hrevoked⟩ : sessionProtocol (some r) (some new) evs := hok
      refine .inl ⟨r, rfl, ?_, ?_, hrevoked⟩
      · rw [hnew]
      · rw [hnew]

/-- The sessions of the user that are not revoked. -/
def openSessionsOf (userId : Nat) : Part sessionBirths where
  Has _ r := SessionRow.userId r = userId ∧ SessionRow.revokedAt r = none
  has_of_later := by
    rintro id r₀ r ⟨huser, _, hrevoked⟩ ⟨hr, hopen⟩
    refine ⟨huser.symm.trans hr, ?_⟩
    rw [← Option.not_isSome_iff_eq_none]
    intro hsome
    have hsome' := hrevoked hsome
    rw [hopen] at hsome'
    cases hsome'

/-- **The passkey was registered for the user when the journal had length `a`**: it is still, or its
revocation has been committed since. -/
structure Listed (u k a : Nat) (s : Server Table) : Prop where
  asOf_le : a ≤ s.log.length
  known : (∃ key : PasskeyRow, s.store.get .userPasskeys k = some key ∧ key.userId = u) ∨
    ∃ e ∈ s.log.drop a, ∃ r ∈ e.ev.revokes?.toList, r.2.1 = k

/-- The transaction has opened a session for the user with the passkey. -/
def OpensWith (c : Conn Table) (u k a : Nat) : Prop :=
  ∃ (id : Nat) (e : Event), c.Notes ⟨.authSessions, id⟩ e ∧ e.opensWith? = some (u, k, a)

/-- The passkey is still registered for its user. -/
def PasskeyKept (_ : Nat) (old new : Option PasskeyRow) : Prop :=
  ∀ key, old = some key → ∃ key', new = some key' ∧ key'.userId = key.userId

/-- It is, unless it is the passkey `k` of `u`. -/
def PasskeyKeptBut (u k id : Nat) (old new : Option PasskeyRow) : Prop :=
  ∀ key, old = some key →
    (∃ key', new = some key' ∧ key'.userId = key.userId) ∨ id = k ∧ key.userId = u

/-- The session is revoked, if it is one of `u`. -/
def RevokedFor (u : Nat) (_ : Nat) (v : Option SessionRow) : Prop :=
  ∀ row, v = some row → row.userId = u → row.revokedAt.isSome

theorem PasskeyKept.refl (id : Nat) (v : Option PasskeyRow) : PasskeyKept id v v :=
  fun key h => ⟨key, h, rfl⟩

theorem PasskeyKeptBut.refl (u k id : Nat) (v : Option PasskeyRow) : PasskeyKeptBut u k id v v :=
  fun key h => .inl ⟨key, h, rfl⟩

/-! ## The contract

A transaction either removes no passkey, or is the one that revokes one. The two kinds owe
different things.
-/

/-- **A transaction that removes no passkey**, and opens sessions only with passkeys that were listed. -/
structure Orderly (c : Conn Table) : Prop where
  kept : c.RowRel .userPasskeys PasskeyKept
  listed : ∀ u k a, OpensWith c u k a → Listed u k a c.server

/-- **A transaction that is revoking the passkey `k` of `u`**: it removes no other passkey, it opens no
session, and the sessions of the user that it has locked are revoked. -/
structure Revoking (u k : Nat) (c : Conn Table) : Prop where
  kept : c.RowRel .userPasskeys (PasskeyKeptBut u k)
  silent : ∀ u' k' a', ¬OpensWith c u' k' a'
  owned : c.Owned .authSessions (RevokedFor u)

/-- **A transaction that has revoked it**: it has told so, and has locked all sessions of the user that
its statement could see. -/
structure Revoked (u k a : Nat) (c : Conn Table) : Prop extends Revoking u k c where
  told : c.Says (.passkeyRevoked u k a)
  swept : c.Swept (openSessionsOf u) a

def passkeyContract : Contract Table where
  base _ c := c.Wf ∧ c.Accounted sessionBirths
  inv _ := True
  guar _ c := Orderly c ∨ ∃ u k a, Revoked u k a c

theorem passkeyContract_wf : passkeyContract.WellFormed := fun _ _ h => h.1

theorem passkeyContract_accounts : passkeyContract.Accounts sessionBirths := fun _ _ h => h.2

section Revocation

variable {p u k a : Nat} {c c' : Conn Table} {env : External} {config : AuthSessionConfig}

/-- A passkey that is not removed stays with its user. -/
theorem passkeyProtocol_kept (id : Nat) {v v' : Option PasskeyRow} {evs : List Event}
    (hok : passkeyProtocol v v' evs) (hsome : v'.isSome = true) : PasskeyKept id v v' := by
  intro key hkey
  subst hkey
  obtain ⟨key', rfl⟩ := Option.isSome_iff_exists.1 hsome
  exact ⟨key', rfl, hok.2⟩

/-! ### What stays known

Facts about the journal survive the commits of others; facts about locked sessions survive because
they are locked.
-/

/-- **A commit removes a listed passkey only if it tells of its revocation.** -/
theorem Listed.commit {s : Server Table} {tx : Tx Table} (h : Listed u k a s)
    (hguar : Orderly ⟨some tx, s⟩ ∨ ∃ u k a, Revoked u k a ⟨some tx, s⟩) (q : Nat) :
    Listed u k a (s.commit q tx) := by
  refine ⟨?_, ?_⟩
  · rw [Server.commit_log, List.length_append]
    exact Nat.le_trans h.asOf_le (Nat.le_add_right _ _)
  · rw [Server.commit_log, List.drop_append_of_le_length h.asOf_le]
    rcases h.known with ⟨key, hkey, huser⟩ | ⟨e, he, hrevoked⟩
    · rcases hguar with horderly | ⟨u', k', a', hrevoked⟩
      · obtain ⟨key', hkey', huser'⟩ := horderly.kept k key hkey
        exact .inl ⟨key', hkey', huser'.trans huser⟩
      · rcases hrevoked.kept k key hkey with ⟨key', hkey', huser'⟩ | ⟨rfl, _⟩
        · exact .inl ⟨key', hkey', huser'.trans huser⟩
        · -- the passkey is the one that is revoked
          refine .inr ⟨⟨q, none, .passkeyRevoked u' k a'⟩, List.mem_append_right _ ?_,
            (u', k, a'), List.mem_singleton_self _, rfl⟩
          exact List.mem_map.2 ⟨_, hrevoked.told rfl, rfl⟩
    · exact .inr ⟨e, List.mem_append_left _ he, hrevoked⟩

theorem stable_listed : (passkeyContract.judge p).Stable fun c => Listed u k a c.server := by
  intro c c' hr h
  cases hr.2.2.2.2 with
  | tick d => exact ⟨h.asOf_le, h.known⟩
  | draw d => exact ⟨h.asOf_le, h.known⟩
  | commit q tx hq hcompat hI hcond => exact h.commit hI.2 q

theorem stable_opensWith (P : (Nat → Nat → Nat → Prop) → Prop) :
    (passkeyContract.judge p).Stable fun c => P (OpensWith c) := by
  intro c c' hr hc
  have hsame : OpensWith c' = OpensWith c := by
    unfold OpensWith Conn.Notes Conn.notes
    rw [Contract.private_judge c c' hr]
  rw [hsame]
  exact hc

theorem opensWith_noted {e : Event} : OpensWith (c.noted e) u k a ↔ OpensWith c u k a := by
  unfold OpensWith
  simp only [Conn.notes_noted]

/-- What statements note about sessions, they note about changes. -/
theorem OpensWith.framed {φ : Change Table} (hf : Framed φ c c') (h : OpensWith c' u k a) :
    OpensWith c u k a ∨ ∃ (id : Nat) (old new : Option SessionRow) (evs : List Event),
      φ .authSessions id old new evs ∧ ∃ e ∈ evs, e.opensWith? = some (u, k, a) := by
  obtain ⟨id, e, hnotes, he⟩ := h
  rcases hnotes.of_framed hf with hold | ⟨old, new, evs, hchange, hmem⟩
  · exact .inl ⟨id, e, hold, he⟩
  · exact .inr ⟨id, old, new, evs, hchange, e, hmem, he⟩

theorem not_opensWith_of_clean (h : c.Clean) : ¬OpensWith c u k a := by
  rintro ⟨id, e, hnotes, _⟩
  unfold Conn.Notes at hnotes
  rw [h.notes] at hnotes
  cases hnotes

theorem Orderly.of_clean (h : c.Clean) : Orderly c :=
  ⟨RowRel.of_view_eq PasskeyKept.refl fun id => by rw [h.view_eq],
    fun _ _ _ hopens => absurd hopens (not_opensWith_of_clean h)⟩

theorem stable_orderly : (passkeyContract.judge p).Stable Orderly := by
  intro c c' hr h
  refine ⟨Contract.stable_rowRel (t := Table.userPasskeys) passkeyContract_wf PasskeyKept.refl c c' hr
    h.kept, fun u k a hopens => ?_⟩
  have hbefore : OpensWith c u k a := by
    unfold OpensWith Conn.Notes Conn.notes at hopens ⊢
    rw [Contract.private_judge c c' hr] at hopens
    exact hopens
  exact stable_listed c c' hr (h.listed u k a hbefore)

/-! ### Requests that remove no passkey

Nearly all requests, by their footprints.
-/

/-- Any change that removes no passkey, and opens no session with one. -/
def noRemoval : Change Table
  | .userPasskeys, _, _, new, _ => new.isSome
  | .authSessions, _, _, _, evs => ∀ e ∈ evs, Event.opensWith? e = none
  | _, _, _, _, _ => True

/-- The same, but sessions may be opened for the user with that passkey. -/
def openingWith (u k a : Nat) : Change Table
  | .userPasskeys, _, _, new, _ => new.isSome
  | .authSessions, _, _, _, evs => ∀ e ∈ evs, ∀ o, Event.opensWith? e = some o → o = (u, k, a)
  | _, _, _, _, _ => True

theorem free_noRemoval {t : Table} (ht : t ≠ .userPasskeys) (ht' : t ≠ .authSessions) :
    Free noRemoval t := by
  intro id old new evs
  cases t <;> trivial

theorem free_openingWith {t : Table} (ht : t ≠ .userPasskeys) (ht' : t ≠ .authSessions) :
    Free (openingWith u k a) t := by
  intro id old new evs
  cases t <;> trivial

theorem noRemoval_openingWith (t : Table) (id : t.Id) (old new : Option t.Row) (evs : List Event)
    (h : noRemoval t id old new evs) : openingWith u k a t id old new evs := by
  cases t with
  | userPasskeys => exact h
  | authSessions =>
    intro e he o ho
    rw [h e he] at ho
    cases ho
  | _ => trivial

theorem ordinary_noRemoval : Ordinary noRemoval where
  auditLogs := free_noRemoval (by decide) (by decide)
  loginAttempts := free_noRemoval (by decide) (by decide)
  settings _ _ _ := free_noRemoval (by decide) (by decide) _ _ _ _
  reauthentications _ _ _ _ := free_noRemoval (by decide) (by decide) _ _ _ _
  passkeys _ _ _ := rfl
  stepUpTokens := free_noRemoval (by decide) (by decide)
  moduleUnlocks := free_noRemoval (by decide) (by decide)
  sessions _ _ _ := fun _ he => by cases he
  users _ _ _ := free_noRemoval (by decide) (by decide) _ _ _ _
  passwords _ _ _ := free_noRemoval (by decide) (by decide) _ _ _ _
  userRoles := (free_noRemoval (by decide) (by decide)).edits
  rolePermissions := (free_noRemoval (by decide) (by decide)).edits

theorem keeping_framed {φ : Change Table}
    (hφ : ∀ id old new evs, φ .userPasskeys id old new evs → new.isSome) (hf : Framed φ c c')
    (h : c.RowRel .userPasskeys PasskeyKept) : c'.RowRel .userPasskeys PasskeyKept := by
  refine RowRel.framed (fun id old v v' evs hchange hok hkept key hkey => ?_) h hf
  obtain ⟨key₁, hkey₁, huser₁⟩ := hkept key hkey
  obtain ⟨key₂, hkey₂, huser₂⟩ := passkeyProtocol_kept id hok (hφ _ _ _ _ hchange) key₁ hkey₁
  exact ⟨key₂, hkey₂, huser₂.trans huser₁⟩

/-- What is listed is listed after statements too: they commit nothing. -/
theorem Listed.framed {φ : Change Table} (hf : Framed φ c c') (h : Listed u k a c.server) :
    Listed u k a c'.server where
  asOf_le := by
    rw [hf.log]
    exact h.asOf_le
  known := by
    rw [hf.store, hf.log]
    exact h.known

theorem Orderly.framed (hf : Framed noRemoval c c') (h : Orderly c) : Orderly c' := by
  refine ⟨keeping_framed (fun _ _ _ _ h => h) hf h.kept, fun u k a hopens => ?_⟩
  rcases hopens.framed hf with hold | ⟨_, _, _, evs, hchange, e, he, hnew⟩
  · exact (h.listed u k a hold).framed hf
  · rw [hchange e he] at hnew
    cases hnew

/-- **Requests that remove no passkey, and use none**, are carried past. -/
theorem carried_orderly : Carried (passkeyContract.judge p) noRemoval Orderly where
  stable := stable_orderly
  frame _ _ hf h := h.framed hf
  clean _ h := .of_clean h
  note _ e _ h := ⟨RowRel.noted h.kept e, fun u k a hopens =>
    h.listed u k a (opensWith_noted.1 hopens)⟩
  guar _ _ h := ⟨.inl h, fun _ _ => trivial⟩

/-- The challenge was not answered with a passkey. -/
def NoPasskey (completed : Option (Nat × Factor)) : Prop :=
  ∀ userId, (Event.sessionCreated userId completed).opensWith? = none

theorem passkeyLogins : Logins env config (passkeyContract.judge p) p noRemoval Orderly
    (fun _ _ => True) (fun _ => True) NoPasskey := by
  refine Carried.logins carried_orderly ordinary_noRemoval fun userId completed hmay => ?_
  intro n new huser hcompleted _ _ e he
  rw [List.mem_singleton.1 he]
  exact hmay _

/-! ### Logins with a passkey

The passkeys that `list_passkeys` returns are registered at that moment, and the session is opened
with one of them, much later.
-/

/-- **A login with the passkey `k` of `u` is on its way**, which was listed when the journal had length
`a`. -/
structure LoggingIn (u k a : Nat) (c : Conn Table) : Prop where
  orderly : Orderly c
  listed : Listed u k a c.server

theorem stable_loggingIn : (passkeyContract.judge p).Stable (LoggingIn u k a) := fun c c' hr h =>
  ⟨stable_orderly c c' hr h.orderly, stable_listed c c' hr h.listed⟩

/-- Its own acts may open the session. -/
theorem LoggingIn.step {b : Act Table} (hb : b.Steps (openingWith u k a)) (h : LoggingIn u k a c) :
    LoggingIn u k a (b.step p c).2 := by
  rcases hb.cases with rfl | rfl | rfl | hw
  · exact ⟨.of_clean (.inr ⟨_, rfl⟩), h.listed⟩
  · obtain ⟨otx, s⟩ := c
    cases otx with
    | none => exact h
    | some tx => exact ⟨.of_clean (.inl rfl), h.listed.commit (.inl h.orderly) p⟩
  · exact ⟨.of_clean (.inl rfl), h.listed⟩
  · have hf := hw.framed p c
    have hlisted := h.listed.framed hf
    refine ⟨⟨keeping_framed (fun _ _ _ _ h => h) hf h.orderly.kept, fun u' k' a' hopens => ?_⟩, hlisted⟩
    rcases hopens.framed hf with hold | ⟨_, _, _, evs, hchange, e, he, hnew⟩
    · exact (h.orderly.listed u' k' a' hold).framed hf
    · have heq : (u', k', a') = (u, k, a) := hchange e he _ hnew
      injection heq with hu hka
      injection hka with hk ha
      rw [hu, hk, ha]
      exact hlisted

/-- Programs of such a login. -/
theorem loggingIn {α : Type} {m : Db α} (hm : m.All (Act.Steps (openingWith u k a))) :
    Triple (passkeyContract.judge p) p (LoggingIn u k a) m fun _ => LoggingIn u k a :=
  Triple.of_all stable_loggingIn
    (fun _ hb _ _ hc => ⟨fun _ => ⟨.inl hc.orderly, fun _ _ => trivial⟩, hc.step hb⟩) hm

theorem mem_passkeysOf {s : Snap} {userId : Nat} {e : Nat × PasskeyRow} :
    e ∈ Repositories.Mfa.passkeysOf s userId ↔
      s.store.get .userPasskeys e.1 = some e.2 ∧ e.2.userId = userId := by
  unfold Repositories.Mfa.passkeysOf
  rw [List.mem_insertionSort, List.mem_filter, beq_iff_eq]
  exact and_congr_left fun _ => Store.mem_rows (t := Table.userPasskeys)

/-- **The passkeys that are listed** are registered for the user at that moment. -/
theorem listPasskeys_listed (userId : Nat) :
    Triple (passkeyContract.judge p) p Orderly (Repositories.Mfa.listPasskeys userId)
      fun passkeys c => Orderly c ∧
        ∀ key ∈ passkeys.keys, Listed userId key.1 passkeys.asOf c.server := by
  have hst : ∀ (keys : List (Nat × PasskeyRow)) asOf, (passkeyContract.judge p).Stable fun c =>
      Orderly c ∧ ∀ key ∈ keys, Listed userId key.1 asOf c.server := fun keys asOf =>
    stable_orderly.and (Judge.Stable.forall fun key => fun c c' hr h hkey =>
      stable_listed c c' hr (h hkey))
  refine (Triple.poolQuery stable_orderly (fun s => hst (Repositories.Mfa.passkeysOf s userId) s.asOf)
    fun c _ hc => ⟨hc, fun key hkey => ?_⟩).bind fun s => Triple.ret (hst _ _) fun _ _ hc => hc
  exact ⟨le_rfl, .inl ⟨key.2, mem_passkeysOf.1 hkey⟩⟩

/-- The user that is found has the number that was asked for. -/
theorem findById_id {P : Conn Table → Prop} (hst : (passkeyContract.judge p).Stable P) (id : Nat) :
    Triple (passkeyContract.judge p) p P (Repositories.Users.findById id) fun o c =>
      (∀ found, o = some found → found.id = id) ∧ P c := by
  refine (Triple.poolQuery hst (fun _ => hst) fun _ _ hc => hc).bind fun s =>
    Triple.ret hst fun c _ hc => ⟨fun found hfound => ?_, hc⟩
  obtain ⟨_, _, rfl⟩ := Option.map_eq_some_iff.1 hfound
  rfl

theorem ordinary_openingWith : Ordinary (openingWith u k a) :=
  ordinary_noRemoval.mono noRemoval_openingWith

/-- **`finish_passkey_authentication`** opens its session with a passkey that it has listed. -/
theorem finishPasskeyAuthentication_orderly (challengeToken credential : String) :
    Triple (passkeyContract.judge p) p Orderly
      (Services.Mfa.finishPasskeyAuthentication env config challengeToken credential)
      fun _ => Orderly := by
  have L : Logins env config (passkeyContract.judge p) p noRemoval Orderly (fun _ _ => True)
    (fun _ => True) NoPasskey := passkeyLogins
  have hchallenges : Alters noRemoval .authMfaChallenges :=
    (free_noRemoval (by decide) (by decide)).alters
  refine (L.quiet begin_steps).bind fun _ => ?_
  refine (L.within (Services.Mfa.lockChallenge_within _ _)).bind fun challenge => ?_
  refine (L.within (all_okOrThrow _)).bind fun r => ?_
  refine (listPasskeys_listed challenge.row.userId).bind fun passkeys => ?_
  cases env.finishPasskeyAuthentication credential r.2 with
  | none =>
    exact (L.quiet (Services.Mfa.failChallenge_steps ordinary_noRemoval hchallenges _ _)).pre
      fun _ hc => hc.1
  | some result =>
    -- the passkey that is used is among those that were listed
    refine Triple.bind (R := fun used c => used ∈ passkeys.keys ∧
      LoggingIn challenge.row.userId used.1 passkeys.asOf c) ?_ fun used => Triple.assuming fun _ => ?_
    · have hst : (passkeyContract.judge p).Stable fun c => Orderly c ∧
          ∀ key ∈ passkeys.keys, Listed challenge.row.userId key.1 passkeys.asOf c.server :=
        stable_orderly.and (Judge.Stable.forall fun key => fun c c' hr h hkey =>
          stable_listed c c' hr (h hkey))
      refine (Triple.okOr hst).post fun used c hc => ?_
      have hmem : used ∈ passkeys.keys := List.mem_of_find?_eq_some hc.1
      exact ⟨hmem, hc.2.1, hc.2.2 used hmem⟩
    have hopen : Alters (openingWith challenge.row.userId used.1 passkeys.asOf) .authMfaChallenges :=
      (free_openingWith (by decide) (by decide)).alters
    refine (loggingIn (within_steps (Repositories.Mfa.updatePasskeyAfterUse_within ordinary_openingWith
      _ _))).bind fun _ => ?_
    refine (loggingIn (within_steps (Repositories.Mfa.consumeChallenge_within hopen _ _))).bind
      fun _ => ?_
    refine (loggingIn (within_steps (Repositories.AuditLogs.record_within
      ordinary_openingWith.auditLogs _ _ _ _ _))).bind fun _ => ?_
    refine (loggingIn commit_steps).bind fun _ => ?_
    refine (findById_id stable_loggingIn _).bind fun o => Triple.assuming fun hfound => ?_
    refine (Triple.okOr stable_loggingIn).bind fun user => Triple.assuming fun huser => ?_
    have hid : user.id = challenge.row.userId := hfound user huser
    refine (loggingIn (Services.Auth.createLoginSession_steps ordinary_openingWith ?_ _ _ _)).post
      fun _ _ hc => hc.orderly
    intro n new hnew hcompleted _ _ e he o ho
    rw [List.mem_singleton.1 he, hid] at ho
    exact (Option.some.inj ho).symm

/-! ### The transaction that revokes

First the passkey is deleted, then the sessions that the `UPDATE` sees are revoked, and the
revocation is noted.
-/

theorem stable_revoking : (passkeyContract.judge p).Stable (Revoking u k) := by
  intro c c' hr h
  refine ⟨Contract.stable_rowRel (t := Table.userPasskeys) passkeyContract_wf (PasskeyKeptBut.refl u k)
    c c' hr h.kept, ?_, Contract.stable_ownedRows passkeyContract_wf c c' hr h.owned⟩
  exact stable_opensWith (fun opens => ∀ u' k' a', ¬opens u' k' a') c c' hr h.silent

theorem stable_revoked : (passkeyContract.judge p).Stable (Revoked u k a) := by
  intro c c' hr h
  refine ⟨stable_revoking c c' hr h.toRevoking, ?_, ?_⟩
  · exact Conn.Says.stable Contract.private_judge _ c c' hr h.told
  · exact Contract.stable_swept passkeyContract_accounts a c c' hr h.swept

theorem Revoking.of_begun (h : c.Begun) : Revoking u k c :=
  ⟨RowRel.of_view_eq (PasskeyKeptBut.refl u k) fun id => by rw [h.view_eq],
    fun _ _ _ => not_opensWith_of_clean (.inr h), .of_begun h⟩

/-- Any change but the removal of other passkeys, and the opening of sessions. -/
def removing (u k : Nat) : Change Table
  | .userPasskeys, id, old, new, _ =>
    new.isSome ∨ id = k ∧ ∀ key : PasskeyRow, old = some key → key.userId = u
  | .authSessions, _, _, _, evs => ∀ e ∈ evs, Event.opensWith? e = none
  | _, _, _, _, _ => True

theorem free_removing {t : Table} (ht : t ≠ .userPasskeys) (ht' : t ≠ .authSessions) :
    Free (removing u k) t := by
  intro id old new evs
  cases t <;> trivial

/-- Such changes keep the other passkeys, -/
theorem keptBut_framed (hf : Framed (removing u k) c c')
    (h : c.RowRel .userPasskeys (PasskeyKeptBut u k)) :
    c'.RowRel .userPasskeys (PasskeyKeptBut u k) := by
  refine RowRel.framed (fun id old v v' evs hchange hok hold key hkey => ?_) h hf
  rcases hold key hkey with ⟨key₁, hkey₁, huser₁⟩ | hmine
  · rcases hchange with hsome | ⟨hid, hmine⟩
    · obtain ⟨key₂, hkey₂, huser₂⟩ := passkeyProtocol_kept id hok hsome key₁ hkey₁
      exact .inl ⟨key₂, hkey₂, huser₂.trans huser₁⟩
    · exact .inr ⟨hid, huser₁.symm.trans (hmine key₁ hkey₁)⟩
  · exact .inr hmine

/-- and open no session. -/
theorem silent_framed (hf : Framed (removing u k) c c') (h : ∀ u' k' a', ¬OpensWith c u' k' a')
    (u' k' a' : Nat) : ¬OpensWith c' u' k' a' := by
  intro hopens
  rcases hopens.framed hf with hold | ⟨_, _, _, evs, hchange, e, he, hnew⟩
  · exact h u' k' a' hold
  · rw [hchange e he] at hnew
    cases hnew

/-- Statements on other tables than the sessions. -/
theorem whileRevoking {α : Type} {m : Db α} (hm : m.All (Act.Within (removing u k)))
    (ho : m.All (Act.Outside .authSessions)) :
    Triple (passkeyContract.judge p) p (Revoking u k) m fun _ => Revoking u k := by
  have hboth : m.All fun b => b.Within (removing u k) ∧ b.Outside .authSessions := hm.and ho
  refine Triple.of_all stable_revoking (fun b hb c _ hc => ⟨fun h => absurd h hb.2.ne_commit, ?_⟩)
    hboth
  have hf := hb.1.framed p c
  exact ⟨keptBut_framed hf hc.kept, silent_framed hf hc.silent,
    hc.owned.sameTable (hb.2.sameTable p c)⟩

/-- The same, after the revocation of the sessions. -/
theorem whileRevoked {α : Type} {m : Db α} (hm : m.All (Act.Within (removing u k)))
    (ho : m.All (Act.Outside .authSessions)) :
    Triple (passkeyContract.judge p) p (Revoked u k a) m fun _ => Revoked u k a := by
  have hboth : m.All fun b => b.Within (removing u k) ∧ b.Outside .authSessions := hm.and ho
  refine Triple.of_all stable_revoked (fun b hb c _ hc => ⟨fun h => absurd h hb.2.ne_commit, ?_⟩)
    hboth
  have hf := hb.1.framed p c
  exact ⟨⟨keptBut_framed hf hc.kept, silent_framed hf hc.silent,
    hc.owned.sameTable (hb.2.sameTable p c)⟩, hc.told.framed hf, Conn.SweptBut.framed hf hc.swept⟩

/-- The passkey that is deleted is the one of the user. -/
theorem deletePasskey_revoking :
    Triple (passkeyContract.judge p) p (Revoking u k) (Repositories.Mfa.deletePasskey u k)
      fun _ => Revoking u k := by
  have hother : Table.userPasskeys ≠ .authSessions := by decide
  refine whileRevoking (.bind (Prog.All.delete (fun s i r hr => ?_) trivial) fun _ => .ret)
    (.bind (Prog.All.delete (fun _ _ => hother) trivial) fun _ => .ret)
  -- the condition of the statement compares the number and the user
  obtain ⟨hid, huser⟩ := Bool.and_eq_true_iff.1 hr
  refine .inr ⟨eq_of_beq hid, fun key hkey => ?_⟩
  cases hkey
  exact eq_of_beq huser

/-- **`revoke_all_for_user`** revokes every session of the user that it locks, and it locks all that it
could see. -/
theorem revokeAllForUser_revoking :
    Triple (passkeyContract.judge p) p (Revoking u k) (Repositories.AuthSessions.revokeAllForUser u)
      fun revoked c => Revoking u k c ∧ c.Swept (openSessionsOf u) revoked.asOf := by
  have hedits : Edits (removing u k) .authSessions := fun _ _ _ _ he => by cases he
  have hwithin : (Repositories.AuthSessions.revokeAllForUser u).All (Act.Within (removing u k)) :=
    Repositories.AuthSessions.revokeAllForUser_within hedits _
  have hst : (passkeyContract.judge p).Stable fun c => c.Owned .authSessions (RevokedFor u) :=
    Contract.stable_ownedRows passkeyContract_wf
  -- what is locked is revoked
  have howned : Triple (passkeyContract.judge p) p
      (fun c => c.Owned .authSessions (RevokedFor u)) (Repositories.AuthSessions.revokeAllForUser u)
      fun _ c => c.Owned .authSessions (RevokedFor u) := by
    refine (Triple.outside hst (fun _ _ hs hc => hc.sameTable hs) query_outside).bind fun s => ?_
    refine Triple.bind (Triple.change passkeyContract_wf ?_ ?_) fun _ =>
      Triple.ret hst fun _ _ hc => hc
    · -- a session that the statement changes
      intro id r _ row hrow _
      cases hrow
      rfl
    · -- a session that it passes over, when it has waited for it
      intro id r hskip row hrow huser
      cases hrow
      cases hrevoked : r.revokedAt with
      | some t => rfl
      | none => simp [Repositories.AuthSessions.revokeAllForUserStmt,
          Repositories.AuthSessions.revokeStmt, huser, hrevoked] at hskip
  -- all that its snapshot selects is locked
  have hswept : Triple (passkeyContract.judge p) p (fun _ => True)
      (Repositories.AuthSessions.revokeAllForUser u)
      fun revoked c => c.Swept (openSessionsOf u) revoked.asOf := by
    refine (Triple.startSweep passkeyContract_wf passkeyContract_accounts (openSessionsOf u)).bind
      fun s => ?_
    refine (Triple.sweepUpdate passkeyContract_wf passkeyContract_accounts fun id r hr => ?_).bind
      fun _ => Triple.ret (Contract.stable_swept passkeyContract_accounts _) fun _ _ hc => hc
    have huser : SessionRow.userId r = u := hr.1
    have hopen : SessionRow.revokedAt r = none := hr.2
    simp [Repositories.AuthSessions.revokeAllForUserStmt, Repositories.AuthSessions.revokeStmt,
      huser, hopen]
  -- the rest is within the footprint of the statement
  have hrest : Triple (passkeyContract.judge p) p
      (fun c => c.RowRel .userPasskeys (PasskeyKeptBut u k) ∧ ∀ u' k' a', ¬OpensWith c u' k' a')
      (Repositories.AuthSessions.revokeAllForUser u)
      fun _ c => c.RowRel .userPasskeys (PasskeyKeptBut u k) ∧ ∀ u' k' a', ¬OpensWith c u' k' a' := by
    refine Triple.within ?_ (fun c c' hf h => ?_) hwithin
    · exact (Contract.stable_rowRel (t := Table.userPasskeys) passkeyContract_wf
        (PasskeyKeptBut.refl u k)).and (stable_opensWith fun opens => ∀ u' k' a', ¬opens u' k' a')
    · exact ⟨keptBut_framed hf h.1, silent_framed hf h.2⟩
  refine (hrest.and (howned.and hswept)).conseq
    (fun _ hc => ⟨⟨hc.kept, hc.silent⟩, hc.owned, trivial⟩) fun _ _ hc => ?_
  exact ⟨⟨hc.1.1, hc.1.2, hc.2.1⟩, hc.2.2⟩

/-- **The revocation tells of itself**, once it has revoked the sessions. -/
theorem noteRevoked (revokedAsOf : Nat) :
    Triple (passkeyContract.judge p) p
      (fun c => Revoking u k c ∧ c.Swept (openSessionsOf u) revokedAsOf)
      (noteEvent (.passkeyRevoked u k revokedAsOf) : Db Unit) fun _ => Revoked u k revokedAsOf := by
  refine Triple.noteEvent
    (stable_revoking.and (Contract.stable_swept passkeyContract_accounts _)) stable_revoked
    fun c _ hc => ?_
  obtain ⟨⟨hkept, hsilent, howned⟩, hswept⟩ := hc
  exact ⟨⟨RowRel.noted hkept _, fun u' k' a' hopens => hsilent u' k' a' (opensWith_noted.1 hopens),
    howned.sameTable (.noted _ c _)⟩, .of_noted c _, hswept.noted _⟩

/-- **The transaction may commit.** -/
theorem commit_revoked : Triple (passkeyContract.judge p) p (Revoked u k a) (commitTx : Db Unit)
    fun _ => Orderly :=
  (Triple.commitTx Contract.private_judge stable_revoked fun _ _ hc =>
    ⟨.inr ⟨u, k, a, hc⟩, fun _ _ => trivial⟩).post fun _ _ htx => .of_clean (.inl htx)

/-- **`revoke_passkey`.** -/
theorem revokePasskey_revokes (userId passkeyId : Nat) (req : MfaFactorRevokeRequest) :
    Triple (passkeyContract.judge p) p Orderly
      (Services.Mfa.revokePasskey env userId passkeyId req) fun _ => Orderly := by
  have haudit : Free (removing userId passkeyId) .auditLogs :=
    free_removing (by decide) (by decide)
  refine (Triple.speaks carried_orderly (steps_tells
    (Services.Mfa.verifyPasswordAndTotp_steps ordinary_noRemoval _ _ _))).bind fun _ => ?_
  -- from here on it is one transaction
  have hbegin : Triple (passkeyContract.judge p) p Orderly (beginTx : Db Unit)
      fun _ => Revoking userId passkeyId :=
    (Triple.beginTx Contract.private_judge).conseq (fun _ _ => trivial) fun _ _ hc => .of_begun hc
  refine hbegin.bind fun _ => ?_
  refine deletePasskey_revoking.bind fun deleted => ?_
  refine (whileRevoking (all_reject _ _) (all_reject _ _)).bind fun _ => ?_
  refine revokeAllForUser_revoking.bind fun revoked => ?_
  refine (noteRevoked revoked.asOf).bind fun _ => ?_
  refine (whileRevoked (Services.Auth.recordSessionRevocation_within haudit _ _ _ _)
    (Services.Auth.recordSessionRevocation_outside (by decide) _ _ _ _)).bind fun _ => ?_
  refine (whileRevoked (Repositories.AuditLogs.record_within haudit _ _ _ _ _)
    (Repositories.AuditLogs.record_outside (by decide) _ _ _ _ _)).bind fun _ => ?_
  exact commit_revoked

/-- Only `finish_passkey_authentication` answers a challenge with a passkey. -/
theorem Request.Completes.noPasskey {req : Request} {completed : Option (Nat × Factor)}
    (h : req.Completes completed) (hpasskey : ∀ r, req ≠ .finishPasskeyAuthentication r) :
    NoPasskey completed := by
  intro userId
  cases req with
  | login =>
    cases h
    rfl
  | verifyTotp => obtain ⟨id, counter, rfl | rfl⟩ := h <;> rfl
  | verifyRecoveryCode =>
    obtain ⟨id, code, rfl⟩ := h
    rfl
  | finishPasskeyAuthentication r => exact absurd rfl (hpasskey r)
  | _ => cases h

/-- **Every request opens sessions with listed passkeys only, and revokes the sessions of a user
before it removes a passkey.** -/
theorem requests_revoke (env : External) (config : AuthSessionConfig) {s₀ : Server Table}
    (h₀ : s₀.Wf) : passkeyContract.Kept (serve env config) s₀ fun _ _ _ _ => True where
  base _ hC p := ⟨hC.wf h₀ p, sessionBirths.reachable h₀ hC p⟩
  init := trivial
  advance _ _ _ _ := trivial
  prog p req := by
    have L : Logins env config (passkeyContract.judge p) p noRemoval Orderly (fun _ _ => True)
      (fun _ => True) NoPasskey := passkeyLogins
    have hfree : ∀ t : Table, t ≠ .userPasskeys → t ≠ .authSessions → Free noRemoval t :=
      fun _ ht ht' => free_noRemoval ht ht'
    have hchallenges : Free noRemoval .authMfaChallenges := hfree _ (by decide) (by decide)
    have hcodes : Free noRemoval .userMfaRecoveryCodes := hfree _ (by decide) (by decide)
    have hsettings : Free noRemoval .userMfaSettings := hfree _ (by decide) (by decide)
    have hsubjects : ∀ t ∈ [Table.userRoles, .users, .roles, .rolePermissions, .departments],
        Free noRemoval t := by
      intro t ht
      refine hfree t ?_ ?_
      · rintro rfl
        revert ht
        decide
      · rintro rfl
        revert ht
        decide
    -- requests that neither remove a passkey nor log in with one
    have hothers : ∀ req : Request, req.removesPasskey = false →
        (∀ r, req ≠ .finishPasskeyAuthentication r) →
        Triple (passkeyContract.judge p) p Orderly (serve env config req) fun _ => Orderly := by
      intro req hkeeps hpasskey
      refine L.serve ordinary_noRemoval req (Request.permitted hsubjects (fun _ _ => rfl)
        (fun hp => absurd (hp.symm.trans hkeeps) (by decide)) (fun _ _ _ => hcodes _ _ _ _)
        hchallenges.alters (fun _ => hchallenges) (fun _ => .of_free hcodes)
        fun _ _ _ _ => hsettings _ _ _ _) (fun _ _ => trivial) fun _ h => h.noPasskey hpasskey
    have hserve : Triple (passkeyContract.judge p) p Orderly (serve env config req)
        fun _ => Orderly := by
      cases req with
      | revokePasskey parts passkeyId req =>
        refine (L.quiet (authenticate_steps ordinary_noRemoval _)).bind fun auth => ?_
        exact (revokePasskey_revokes _ _ _).bind fun _ => L.within .ret
      | finishPasskeyAuthentication req =>
        exact (finishPasskeyAuthentication_orderly _ _).bind fun _ => L.within .ret
      | _ => exact hothers _ rfl (fun _ h => by cases h)
    exact hserve.conseq (fun c hc => .of_clean (.inl hc)) fun _ _ _ => trivial

end Revocation

/-! ## Runs

From the contract and the condition to runs: at the revocation no session of the user is left
open, and none that is opened later can be one of the passkey.
-/

section Runs

variable {env : External} {config : AuthSessionConfig} {cond : Nat → Conn Table → Prop}
  {s₀ : Server Table} {C C' C₁ C₂ C₃ : Db.Config}

/-- The value is no session that could be accepted. -/
def Closed (v : Option SessionRow) : Prop := ∀ row, v = some row → row.revokedAt.isSome

/-- **A session that cannot be accepted stays one.** -/
theorem closed_kept (h₀ : s₀.Wf) (hC : ReachableIf (serve env config) cond s₀ C)
    (hs : Steps (serve env config) cond C C') {id : Nat} {r : SessionRow}
    (hr : C.server.store.get .authSessions id = some r) (hclosed : r.revokedAt.isSome) :
    Closed (C'.server.store.get .authSessions id) := by
  refine Steps.row_kept (t := Table.authSessions) (F := Closed) h₀ hC rfl ?_ hr ?_ hs
  · intro r new evs hok hr row hrow
    subst hrow
    exact hok.2.2 (hr r rfl)
  · intro row hrow
    cases hrow
    exact hclosed

/-- **A session keeps its user and the passkey it was opened with.** -/
theorem session_origin (h₀ : s₀.Wf) (hC : ReachableIf (serve env config) cond s₀ C)
    (hs : Steps (serve env config) cond C C') {id : Nat} {r row : SessionRow}
    (hr : C.server.store.get .authSessions id = some r)
    (hrow : C'.server.store.get .authSessions id = some row) :
    row.userId = r.userId ∧ row.passkey = r.passkey := by
  have hkept := Steps.row_kept (t := Table.authSessions)
    (F := fun v => ∀ row, v = some row → row.userId = r.userId ∧ row.passkey = r.passkey) h₀ hC rfl
    (fun r' new evs hok hr' row' hrow' => by
      subst hrow'
      have hsame := hr' r' rfl
      obtain ⟨_, heq, _⟩ := hok
      rw [heq]
      exact hsame)
    hr (fun row' hrow' => by
      cases hrow'
      exact ⟨rfl, rfl⟩) hs
  exact hkept row hrow

/-- The birth of a session that was opened with a passkey tells of it. -/
theorem opensWith_of_passkey {row : SessionRow} {k : Nat} (h : row.passkey = some k) :
    ∃ a, (Event.sessionCreated row.userId row.completed).opensWith? = some (row.userId, k, a) := by
  unfold SessionRow.passkey at h
  obtain ⟨⟨challenge, factor⟩, hcompleted, hfactor⟩ := Option.bind_eq_some_iff.1 h
  cases factor with
  | passkey id a =>
    cases hfactor
    rw [hcompleted]
    exact ⟨a, rfl⟩
  | _ => cases hfactor

/-- **A new session that was opened with a passkey finds it registered for its user**, if no revocation
of the passkey has come in between. -/
theorem stands_of_new (h₀ : s₀.Wf) (hcond : ∀ p c, cond p c → NoEscape c)
    (hC : ReachableIf (serve env config) cond s₀ C) (hstep : Step (serve env config) cond C C')
    {id k : Nat} {row : SessionRow} (hnew : C.server.store.get .authSessions id = none)
    (hrow : C'.server.store.get .authSessions id = some row) (hk : row.passkey = some k) :
    ∃ key : PasskeyRow, C'.server.store.get .userPasskeys k = some key ∧
      key.userId = row.userId := by
  rcases Contract.guar_of_step (requests_revoke env config h₀) (ReachableIf.reachable hC) hstep with
    ⟨hstore, _⟩ | ⟨p, tx, _, hserver, ⟨⟨_, haccounts⟩, hguar⟩, hmeets⟩
  · rw [hstore, hnew] at hrow
    cases hrow
  · rw [hserver] at hrow ⊢
    -- the transaction has opened the session
    obtain ⟨a, hopens⟩ : ∃ a, OpensWith ⟨some tx, C.server⟩ row.userId k a := by
      rcases haccounts id row hrow with ⟨r₀, hr₀, _⟩ | ⟨e, he, hborn⟩
      · have hnone : C.server.store.get .authSessions id = some r₀ := hr₀
        rw [hnew] at hnone
        cases hnone
      · obtain ⟨a, ha⟩ := opensWith_of_passkey hk
        exact ⟨a, id, e, mem_noted.1 he, (congrArg Event.opensWith? hborn).trans ha⟩
    rcases hguar with horderly | ⟨_, _, _, hrevoked⟩
    · have hlisted := horderly.listed _ _ _ hopens
      rcases hlisted.known with ⟨key, hkey, huser⟩ | ⟨e, he, r, hr, hrk⟩
      · obtain ⟨key', hkey', huser'⟩ := horderly.kept k key hkey
        exact ⟨key', hkey', huser'.trans huser⟩
      · -- a revocation has come in between
        obtain ⟨i, ev, hnotes, hev⟩ := hopens
        have hne := (hcond p _ hmeets).1 _ hnotes (row.userId, k, a)
          (by rw [hev]; exact List.mem_singleton_self _) e he r hr
        exact absurd hrk hne
    · exact absurd hopens (hrevoked.silent _ _ _)

/-- Whoever logged in with a passkey is the one it is registered for, as long as it is. -/
def PasskeysOwned (env : External) (config : AuthSessionConfig) (cond : Nat → Conn Table → Prop)
    (C : Db.Config) : Prop :=
  ∀ id row k, C.server.store.get .authSessions id = some row → row.passkey = some k →
    (∃ key : PasskeyRow, C.server.store.get .userPasskeys k = some key ∧ key.userId = row.userId) ∨
      ∀ C', Steps (serve env config) cond C C' → C'.server.store.get .userPasskeys k = none

theorem PasskeysOwned.step (h₀ : s₀.Wf) (hcond : ∀ p c, cond p c → NoEscape c)
    (hC : ReachableIf (serve env config) cond s₀ C) (hstep : Step (serve env config) cond C C')
    (h : PasskeysOwned env config cond C) : PasskeysOwned env config cond C' := by
  intro id row k hrow hk
  cases hold : C.server.store.get .authSessions id with
  | none => exact .inl (stands_of_new h₀ hcond hC hstep hold hrow hk)
  | some r =>
    obtain ⟨huser, hpasskey⟩ := session_origin h₀ hC (.single hstep) hold hrow
    rcases h id r k hold (hpasskey.symm.trans hk) with ⟨key, hkey, howner⟩ | hgone
    · cases hkey' : C'.server.store.get .userPasskeys k with
      | none =>
        -- it has just been removed, for good
        exact .inr fun C'' hs => Steps.row_gone (t := Table.userPasskeys) h₀ hC rfl hkey
          (.single hstep) hkey' hs
      | some key' =>
        have hsame := Steps.row_kept (t := Table.userPasskeys)
          (F := fun v => ∀ key', v = some key' → key'.userId = key.userId) h₀ hC rfl
          (fun r new evs hok hr key' hnew => by
            subst hnew
            exact hok.2.trans (hr r rfl))
          hkey (fun key' hnew => by
            cases hnew
            rfl) (.single hstep)
        exact .inl ⟨key', rfl, (hsame key' hkey').trans (howner.trans huser.symm)⟩
    · exact .inr fun C'' hs => hgone C'' (.head hstep hs)

/-- An installation in which nobody has logged in with a passkey yet. -/
def NoPasskeySessions (s : Server Table) : Prop :=
  ∀ (id : Nat) (row : SessionRow), s.store.get .authSessions id = some row → row.passkey = none

theorem passkeysOwned (h₀ : s₀.Wf) (hsessions : NoPasskeySessions s₀)
    (hcond : ∀ p c, cond p c → NoEscape c) (hC : ReachableIf (serve env config) cond s₀ C) :
    PasskeysOwned env config cond C := by
  induction hC with
  | refl =>
    intro id row k hrow hk
    rw [hsessions id row hrow] at hk
    cases hk
  | tail hreach hstep ih => exact ih.step h₀ hcond hreach hstep

/-- **The revocation leaves no session of the user open**, if nobody has opened one since it revoked
them. -/
theorem closed_of_revoked (h₀ : s₀.Wf) (hcond : ∀ p c, cond p c → NoEscape c)
    (hC : ReachableIf (serve env config) cond s₀ C₁) (hstep : Step (serve env config) cond C₁ C₂)
    {k id : Nat} {key : PasskeyRow} {row : SessionRow}
    (hkey : C₁.server.store.get .userPasskeys k = some key)
    (hgone : C₂.server.store.get .userPasskeys k = none)
    (hrow : C₂.server.store.get .authSessions id = some row) (huser : row.userId = key.userId) :
    row.revokedAt.isSome := by
  rcases Contract.guar_of_step (requests_revoke env config h₀) (ReachableIf.reachable hC) hstep with
    ⟨hstore, _⟩ | ⟨p, tx, _, hserver, ⟨⟨hwf, _⟩, hguar⟩, hmeets⟩
  · rw [hstore, hkey] at hgone
    cases hgone
  · rw [hserver] at hgone hrow
    have hview : (⟨some tx, C₁.server⟩ : Conn Table).view.get .userPasskeys k = none := hgone
    rcases hguar with horderly | ⟨u, k', a, hrevoked⟩
    · obtain ⟨key', hkey', _⟩ := horderly.kept k key hkey
      rw [hview] at hkey'
      cases hkey'
    · have howner : key.userId = u := by
        rcases hrevoked.kept k key hkey with ⟨key', hkey', _⟩ | ⟨_, howner⟩
        · rw [hview] at hkey'
          cases hkey'
        · exact howner
      have hmine : row.userId = u := huser.trans howner
      cases hopen : row.revokedAt with
      | some t => rfl
      | none =>
        -- an open session of the user would have been locked, and so revoked
        have hlocked := hrevoked.swept.owns hwf rfl (fun i r hr e he hborn => ?_) hrow ⟨hmine, hopen⟩
        · have hsome := hrevoked.owned id hlocked row hrow hmine
          rw [hopen] at hsome
          exact hsome
        · obtain ⟨entry, hentry, _, hev⟩ := mem_history.1 he
          have hother := (hcond p _ hmeets).2 _ (hrevoked.told rfl) (u, k', a)
            (List.mem_singleton_self _) entry hentry (SessionRow.userId r) (by
              rw [hev, hborn]
              exact List.mem_singleton_self _)
          exact hother hr.1

/-- **Passkey revocation is final**, where no commit escapes: no revocation of a passkey is committed
between the moment a finishing request lists it and the commit of the session it opens, and no session
of the user is committed between the snapshot in which a revocation finds the open sessions and the
commit of that revocation. In every run whose commits respect that, once passkey `k` has been removed,
no session that was opened with it and no session of its user that was committed before is ever
accepted again. -/
theorem passkey_revoked (env : External) (config : AuthSessionConfig) (h₀ : s₀.Wf)
    (hsessions : NoPasskeySessions s₀)
    (hC : ReachableIf (serve env config) (fun _ c => NoEscape c) s₀ C₁)
    (hstep : Step (serve env config) (fun _ c => NoEscape c) C₁ C₂) (k : Nat) (key : PasskeyRow)
    (hkey : C₁.server.store.get .userPasskeys k = some key)
    (hgone : C₂.server.store.get .userPasskeys k = none)
    (hs : Steps (serve env config) (fun _ c => NoEscape c) C₂ C₃) (id : Nat) (row : SessionRow)
    (hrow : row.passkey = some k ∨
      ∃ r : SessionRow, C₁.server.store.get .authSessions id = some r ∧ r.userId = key.userId) :
    ¬Accepted C₃.server id row := by
  have hcond : ∀ (p : Nat) c, NoEscape c → NoEscape c := fun _ _ h => h
  have hC₂ := hC.tail hstep
  rintro ⟨hstored, u, _, haccepted⟩
  have hopen : row.revokedAt = none := by
    simp only [Repositories.AuthSessions.acceptedBy, Bool.and_eq_true, Option.isNone_iff_eq_none]
      at haccepted
    exact haccepted.1.1.1.1.1.1
  -- the session was not yet there when the passkey was removed
  have hnew : C₁.server.store.get .authSessions id = none := by
    cases hold : C₁.server.store.get .authSessions id with
    | none => rfl
    | some r =>
      exfalso
      have hmine : r.userId = key.userId := by
        rcases hrow with hk | ⟨r', hr', huser⟩
        · have horigin := session_origin h₀ hC (.head hstep hs) hold hstored
          rcases passkeysOwned h₀ hsessions hcond hC id r k hold (horigin.2.symm.trans hk) with
            ⟨key', hkey', howner⟩ | hnever
          · rw [hkey] at hkey'
            cases hkey'
            exact howner.symm
          · have hnone := hnever C₁ .refl
            rw [hkey] at hnone
            cases hnone
        · rw [hold] at hr'
          cases hr'
          exact huser
      have hsome : row.revokedAt.isSome := by
        cases hmid : C₂.server.store.get .authSessions id with
        | none =>
          have hnone := Steps.row_gone (t := Table.authSessions) h₀ hC rfl hold (.single hstep) hmid hs
          rw [hstored] at hnone
          cases hnone
        | some r₂ =>
          have hmine₂ := (session_origin h₀ hC (.single hstep) hold hmid).1.trans hmine
          have hclosed := closed_of_revoked h₀ hcond hC hstep hkey hgone hmid hmine₂
          exact closed_kept h₀ hC₂ hs hmid hclosed row hstored
      rw [hopen] at hsome
      cases hsome
  have hk : row.passkey = some k := by
    rcases hrow with hk | ⟨r, hr, _⟩
    · exact hk
    · rw [hnew] at hr
      cases hr
  -- and it cannot have been committed since
  have hnever : ∀ C, Steps (serve env config) (fun _ c => NoEscape c) C₂ C →
      ∀ row, C.server.store.get .authSessions id = some row → row.passkey ≠ some k := by
    intro C hs
    induction hs with
    | refl =>
      intro row hrow hk
      obtain ⟨key', hkey', _⟩ := stands_of_new h₀ hcond hC hstep hnew hrow hk
      rw [hgone] at hkey'
      cases hkey'
    | @tail C C' hs' hlast ih =>
      intro row hrow hk
      cases hold : C.server.store.get .authSessions id with
      | some r =>
        have horigin := session_origin h₀ (hC₂.trans hs') (.single hlast) hold hrow
        exact ih r hold (horigin.2.symm.trans hk)
      | none =>
        obtain ⟨key', hkey', _⟩ := stands_of_new h₀ hcond (hC₂.trans hs') hlast hold hrow hk
        have hnone := Steps.row_gone (t := Table.userPasskeys) h₀ hC rfl hkey (.single hstep) hgone
          (hs'.tail hlast)
        rw [hkey'] at hnone
        cases hnone
  exact hnever C₃ hs row hstored hk

end Runs

/-! ### A login and a revocation

A run in which the revocation comes after the login, and one in which it comes in the middle.
-/

/-- The sample installation with authenticators that answer every challenge. -/
def keyed : External :=
  { Sample.external with
    startPasskeyAuthentication := fun _ _ => some ("options", "state")
    finishPasskeyAuthentication := fun credential _ => some ⟨credential, false⟩ }

/-- A passkey of `agent`. -/
def agentKey : PasskeyRow where
  userId := 13
  name := "key"
  credentialId := Sample.token 5 3
  credential := Sample.token 5 3
  lastUsedAt := none
  createdAt := 0
  updatedAt := 0

/-- The sample installation, where `agent` has registered a passkey. -/
def keyedServer : Server Table :=
  { Sample.server with
    store := Store.ofRows (Sample.rows ++ [⟨.userPasskeys, (5 : Nat), some agentKey⟩]) }

theorem keyedServer_wf : keyedServer.Wf := Server.wf_ofRows (by decide)

theorem keyedServer_sessions : NoPasskeySessions keyedServer := by
  intro id row hrow
  rw [Store.get_of_rows_nil (t := Table.authSessions) (by decide) id] at hrow
  cases hrow

/-- The answer to the passkey challenge `m`. -/
def finishPasskey (m : Nat) : Request :=
  .finishPasskeyAuthentication ⟨Sample.token m 0, Sample.token 5 3⟩

/-- Its revocation, with the session `n`. -/
def revokeAgentKey (n : Nat) : Request :=
  .revokePasskey (Sample.parts n 0) 5 ⟨"old password of agent", "000000"⟩

/-- `agent` has logged in with the passkey and is about to commit its revocation. -/
def revoking₁ : Stage Table ApiError Reply Request :=
  Stage.afterIf (fun _ c => NoEscape c) (serve keyed Sample.config) keyedServer
    [.start (Sample.login "agent"), .run 0 200,
      .start (.startPasskeyAuthentication (Sample.token 20 0)), .run 1 200,
      .start (finishPasskey 23), .run 2 200, .start (revokeAgentKey 25), .run 3 26]

def revoked₁ : Stage Table ApiError Reply Request := revoking₁.nextIf (fun _ c => NoEscape c) 3

/-- The passkey after it has been used. -/
def usedKey : PasskeyRow :=
  { agentKey with lastUsedAt := some (1000000 * second), updatedAt := 1000000 * second }

/-- The passkey that is stored. -/
def storedKey (s : Store Table) : Option PasskeyRow := s.get .userPasskeys (5 : Nat)

theorem revoking₁_key : storedKey revoking₁.server.store = some usedKey := by decide +kernel

theorem revoking₁_session :
    ((revoking₁.server.store.get .authSessions (25 : Nat)).map fun r : SessionRow => r.userId) =
      some 13 := by decide +kernel

theorem revoked₁_key : storedKey revoked₁.server.store = none := by decide +kernel

theorem passkey_revoked_sample : ¬∃ row, Accepted revoked₁.config.server 25 row := by
  rintro ⟨row, haccepted⟩
  have hreach : ReachableIf (serve keyed Sample.config) (fun _ c => NoEscape c) keyedServer
      revoking₁.config := Stage.reachable_afterIf _ _ _ _
  have hne : revoked₁ ≠ revoking₁ := by
    intro h
    have hsame := revoked₁_key
    rw [h, revoking₁_key] at hsame
    cases hsame
  have hstep : Step (serve keyed Sample.config) (fun _ c => NoEscape c) revoking₁.config
      revoked₁.config := Stage.step_nextIf _ _ _ 3 hne
  obtain ⟨r, hr, huser⟩ := Option.map_eq_some_iff.1 revoking₁_session
  refine passkey_revoked keyed Sample.config keyedServer_wf keyedServer_sessions hreach hstep 5
    usedKey ?_ ?_ .refl 25 row (.inr ⟨r, ?_, huser⟩) haccepted
  · rw [Stage.server_config]
    exact revoking₁_key
  · rw [Stage.server_config]
    exact revoked₁_key
  · rw [Stage.server_config]
    exact hr

/-- One login of `agent` has answered its challenge with the passkey and has yet to open its
session, when the passkey is revoked with another session. -/
def revoking₂ : Stage Table ApiError Reply Request :=
  Stage.after (serve keyed Sample.config) keyedServer
    [.start (Sample.login "agent"), .run 0 200, .start (Sample.verifyTotp 20), .run 1 200,
      .start (Sample.login "agent"), .run 2 200,
      .start (.startPasskeyAuthentication (Sample.token 25 0)), .run 3 200,
      .start (finishPasskey 28), .run 4 13, .start (revokeAgentKey 23), .run 5 26]

def revoked₂ : Stage Table ApiError Reply Request := revoking₂.next 5

/-- The login goes on. -/
def opened₂ : Stage Table ApiError Reply Request :=
  revoked₂.resume (serve keyed Sample.config) [.run 4 200]

/-- The passkey login with the number `id` is one whose session would be accepted. -/
def passkeyAccepted (s : Server Table) (id : Nat) : Bool :=
  Option.any (fun row : SessionRow => row.passkey == some 5 &&
    Option.any (fun u : UserRow => Repositories.AuthSessions.acceptedBy (committed s) row u)
      (s.store.get .users row.userId)) (s.store.get .authSessions id)

theorem accepted_of_passkeyAccepted {s : Server Table} {id : Nat}
    (h : passkeyAccepted s id = true) : ∃ row, row.passkey = some 5 ∧ Accepted s id row := by
  unfold passkeyAccepted at h
  cases hrow : s.store.get .authSessions id with
  | none =>
    rw [hrow] at h
    cases h
  | some row =>
    rw [hrow] at h
    obtain ⟨hkey, hany⟩ := Bool.and_eq_true_iff.1 h
    cases hu : s.store.get .users row.userId with
    | none =>
      rw [hu] at hany
      cases hany
    | some u =>
      rw [hu] at hany
      exact ⟨row, eq_of_beq hkey, hrow, u, hu, hany⟩

theorem revoking₂_key : storedKey revoking₂.server.store = some usedKey := by decide +kernel

theorem revoked₂_key : storedKey revoked₂.server.store = none := by decide +kernel

theorem opened₂_accepted : passkeyAccepted opened₂.server 32 = true := by decide +kernel

/-- A session that was opened with the passkey is accepted after its revocation. -/
theorem passkey_survivesRevocation :
    ∃ C₁ C₂ C₃ : Db.Config, Reachable (serve keyed Sample.config) keyedServer C₁ ∧
      Step (serve keyed Sample.config) (fun _ _ => True) C₁ C₂ ∧
      Steps (serve keyed Sample.config) (fun _ _ => True) C₂ C₃ ∧
      (storedKey C₁.server.store).isSome ∧ storedKey C₂.server.store = none ∧
      ∃ id row, row.passkey = some 5 ∧ Accepted C₃.server id row := by
  have hreach : Reachable (serve keyed Sample.config) keyedServer revoking₂.config :=
    Stage.reachable_after _ _ _
  have hne : revoked₂ ≠ revoking₂ := by
    intro h
    have hsame := revoked₂_key
    rw [h, revoking₂_key] at hsame
    cases hsame
  have hstep : Step (serve keyed Sample.config) (fun _ _ => True) revoking₂.config
      revoked₂.config := Stage.step_next _ _ 5 hne
  have hsteps : Steps (serve keyed Sample.config) (fun _ _ => True) revoked₂.config
      opened₂.config := Stage.steps_resume _ _ _
  obtain ⟨row, hrow, haccepted⟩ := accepted_of_passkeyAccepted opened₂_accepted
  refine ⟨_, _, _, hreach, hstep, hsteps, ?_, ?_, 32, row, hrow, ?_⟩
  · rw [Stage.server_config, revoking₂_key]
    rfl
  · rw [Stage.server_config]
    exact revoked₂_key
  · rw [Stage.server_config]
    exact haccepted

end ArcAdmin
