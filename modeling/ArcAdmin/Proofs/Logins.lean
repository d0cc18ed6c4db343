import ArcAdmin.Proofs.QuietRequests

/-!
# Requests that open sessions

Every login ends in `createLoginSession` for a user row that it has found.  A contract that carries the
other requests past by their footprints has to say what holds of such a row from the moment at which it
is found, and that opening a session for it keeps the contract: that is `Logins`, and with it the
contract holds of all requests.

* **`Logins.serve`** — all requests, given what a login does when it opens a session;
* **`serve_carried`** — the same, if new sessions are permitted too.
-/

namespace ArcAdmin

open ReadCommitted
open Prog.All

variable {φ : Change Table} {env : External} {config : AuthSessionConfig}

/-! ## Logins

What a proof has to supply so that the walk through all requests goes through.
-/

/-- The user row that a query finds in the snapshot `s`. -/
def Finds (s : Snap) (found : Repositories.Users.Found) : Prop :=
  found.asOf = s.asOf ∧ s.store.get .users found.id = some found.row

theorem finds_byId {s : Snap} {id : Nat} {found : Repositories.Users.Found}
    (h : Repositories.Users.byId s id = some found) : Finds s found := by
  obtain ⟨row, hrow, rfl⟩ := Option.map_eq_some_iff.1 h
  exact ⟨rfl, (Option.filter_eq_some_iff.1 hrow).1⟩

theorem finds_byUsername {s : Snap} {username : String} {found : Repositories.Users.Found}
    (h : Repositories.Users.byUsername s username = some found) : Finds s found := by
  obtain ⟨e, he, rfl⟩ := Option.map_eq_some_iff.1 h
  exact ⟨rfl, Store.mem_rows.1 (List.mem_of_find?_eq_some he)⟩

/-- **How a login is carried past**: `R` is carried along, whoever has found a user row knows
something about it from then on (`Known`), and opening a session for that row keeps `R`.  The requests
may leave the events `N` of their own, and the sessions may be opened with the factors `May`. -/
structure Logins (env : External) (config : AuthSessionConfig) (J : Judge Table) (p : Nat)
    (φ : Change Table) (R : Conn Table → Prop)
    (Known : Repositories.Users.Found → Conn Table → Prop) (N : Event → Prop := fun _ => True)
    (May : Option (Nat × Factor) → Prop := fun _ => True) : Prop where
  carried : Carried J φ R N
  stable : ∀ found, J.Stable (Known found)
  step : ∀ found (a : Act Table), a.Tells φ N → ∀ c, J.base c → R c → Known found c →
    Known found (a.step p c).2
  learn : ∀ c, J.base c → R c → ∀ found, Finds (⟨none, c.server⟩ : Conn Table).snapshot found →
    Known found c
  opens : ∀ persistent keys user checkedAt completed, May completed →
    Triple J p (fun c => R c ∧ Known user c)
      (Services.Auth.createLoginSession env config persistent keys user checkedAt completed)
      fun _ => R

namespace Logins

variable {J : Judge Table} {p : Nat} {R : Conn Table → Prop}
  {Known : Repositories.Users.Found → Conn Table → Prop} {N : Event → Prop}
  {May : Option (Nat × Factor) → Prop} {α : Type} {m : Db α}

/-- A program that opens no session is carried past. -/
theorem telling (L : Logins env config J p φ R Known N May) (h : m.All (Act.Tells φ N)) :
    Triple J p R m fun _ => R :=
  Triple.speaks L.carried h

theorem quiet (L : Logins env config J p φ R Known N May) (h : m.All (Act.Steps φ)) :
    Triple J p R m fun _ => R :=
  L.telling (steps_tells h)

theorem within (L : Logins env config J p φ R Known N May) (h : m.All (Act.Within φ)) :
    Triple J p R m fun _ => R := L.quiet (within_steps h)

/-- What is known of a user stays known. -/
theorem knowing (L : Logins env config J p φ R Known N May) {found : Repositories.Users.Found}
    (h : m.All (Act.Steps φ)) :
    Triple J p (fun c => R c ∧ Known found c) m fun _ c => R c ∧ Known found c := by
  refine Triple.of_all (L.carried.stable.and (L.stable found)) (fun a ha c hb hc => ?_) h
  exact ⟨fun _ => L.carried.guar c hb hc.1, L.carried.step ha.tells hc.1,
    L.step found a ha.tells c hb hc.1 hc.2⟩

/-- A query on another connection that finds users. -/
theorem finding (L : Logins env config J p φ R Known N May)
    (find : Snap → Option Repositories.Users.Found)
    (hfind : ∀ s found, find s = some found → Finds s found) :
    Triple J p R (do
      let s ← poolQuery
      return find s : Db (Option Repositories.Users.Found))
      fun o c => R c ∧ ∀ found, o = some found → Known found c := by
  refine Triple.bind (R := fun s c => R c ∧ ∀ found, find s = some found → Known found c) ?_
    fun s => ?_
  · refine Triple.poolQuery L.carried.stable (fun s => ?_) fun c hb hc => ?_
    · exact L.carried.stable.and (Judge.Stable.forall fun found => fun c c' hr h hf =>
        L.stable found c c' hr (h hf))
    · exact ⟨hc, fun found hf => L.learn c hb hc found (hfind _ _ hf)⟩
  · refine Triple.ret ?_ fun c _ hc => hc
    exact L.carried.stable.and (Judge.Stable.forall fun found => fun c c' hr h hf =>
      L.stable found c c' hr (h hf))

/-- The user that a query has found. -/
theorem found (L : Logins env config J p φ R Known N May) {o : Option Repositories.Users.Found}
    {e : ApiError} :
    Triple J p (fun c => R c ∧ ∀ found, o = some found → Known found c) (Prog.okOr o e : Db _)
      fun found c => R c ∧ Known found c := by
  cases o with
  | none => exact Triple.fail
  | some found =>
    exact Triple.ret (L.carried.stable.and (Judge.Stable.forall fun found => fun c c' hr h hf =>
      L.stable found c c' hr (h hf))) fun c _ hc => ⟨hc.1, hc.2 found rfl⟩

theorem findById (L : Logins env config J p φ R Known N May) (id : Nat) :
    Triple J p R (Repositories.Users.findById id)
      fun o c => R c ∧ ∀ found, o = some found → Known found c :=
  L.finding _ fun _ _ h => finds_byId h

theorem findByUsername (L : Logins env config J p φ R Known N May) (username : String) :
    Triple J p R (Repositories.Users.findByUsername username)
      fun o c => R c ∧ ∀ found, o = some found → Known found c :=
  L.finding _ fun _ _ h => finds_byUsername h

open Repositories.Mfa (Challenge)

theorem openSession (L : Logins env config J p φ R Known N May) (challenge : Challenge)
    {factor : Factor} (hmay : May (some (challenge.id, factor))) (login : LoginContext)
    (user : Repositories.Users.Found) :
    Triple J p (fun c => R c ∧ Known user c)
      (Services.Mfa.openSession env config challenge factor login user) fun _ => R :=
  L.opens _ _ _ _ _ hmay

theorem checkCode (L : Logins env config J p φ R Known N May) (userId : Nat) (encrypted code : String) :
    Triple J p R (Services.Mfa.checkCode env userId encrypted code)
      fun r c => R c ∧ Known r.1 c := by
  refine (L.within (all_okOr _ _)).bind fun _ => ?_
  refine (L.findById _).bind fun _ => L.found.bind fun user => ?_
  refine (L.knowing (within_steps utcNow_within)).bind fun _ => ?_
  refine (L.knowing (all_okOr _ _)).bind fun _ => ?_
  exact Triple.ret (L.carried.stable.and (L.stable user)) fun _ _ hc => hc

theorem verifyTotpLogin (L : Logins env config J p φ R Known N May) (h : Ordinary φ)
    (hc : Alters φ .authMfaChallenges) (hmay : ∀ id counter, May (some (id, .totp counter)))
    (challengeToken code : String) :
    Triple J p R (Services.Mfa.verifyTotpLogin env config challengeToken code) fun _ => R := by
  refine (L.quiet begin_steps).bind fun _ => ?_
  refine (L.within (Services.Mfa.lockChallenge_within _ _)).bind fun _ => ?_
  refine (L.within (all_okOrThrow _)).bind fun _ => ?_
  refine (L.within (Repositories.Mfa.totpSecretForUpdate_within _)).bind fun _ => ?_
  refine (L.within (all_okOr _ _)).bind fun _ => ?_
  refine (L.checkCode _ _ _).bind fun r => ?_
  obtain ⟨user, counter⟩ := r
  cases counter with
  | none => exact (L.quiet (Services.Mfa.failChallenge_steps h hc _ _)).pre fun _ hc => hc.1
  | some counter =>
    refine (L.knowing (within_steps (Repositories.Mfa.consumeChallenge_within hc _ _))).bind
      fun _ => ?_
    refine (L.knowing (within_steps (Repositories.AuditLogs.record_within h.auditLogs
      _ _ _ _ _))).bind fun _ => ?_
    refine (L.knowing commit_steps).bind fun _ => ?_
    exact L.openSession _ (hmay _ _) _ _

theorem verifyTotpEnrollment (L : Logins env config J p φ R Known N May) (h : Ordinary φ)
    (hc : Alters φ .authMfaChallenges) (he : Enables φ) (hi : Issues φ)
    (hmay : ∀ id counter, May (some (id, .totpEnrollment counter))) (challengeToken code : String) :
    Triple J p R (Services.Mfa.verifyTotpEnrollment env config challengeToken code)
      fun _ => R := by
  refine (L.quiet begin_steps).bind fun _ => ?_
  refine (L.within (Services.Mfa.lockChallenge_within _ _)).bind fun _ => ?_
  refine (L.within (all_okOrThrow _)).bind fun _ => ?_
  refine (L.within (all_okOr _ _)).bind fun _ => ?_
  refine (L.checkCode _ _ _).bind fun r => ?_
  obtain ⟨user, counter⟩ := r
  cases counter with
  | none => exact (L.quiet (Services.Mfa.failChallenge_steps h hc _ _)).pre fun _ hc => hc.1
  | some counter =>
    refine (L.knowing rollback_steps).bind fun _ => ?_
    refine (L.knowing (within_steps Services.Mfa.generateRecoveryCodes_within)).bind fun _ => ?_
    refine (L.knowing (within_steps (Services.Mfa.hashRecoveryCodes_within _))).bind fun _ => ?_
    refine (L.knowing begin_steps).bind fun _ => ?_
    refine (L.knowing (within_steps (Services.Mfa.lockChallenge_within _ _))).bind fun _ => ?_
    refine (L.knowing (all_okOrThrow _)).bind fun _ => ?_
    refine (L.knowing (within_steps (Repositories.Mfa.enableTotp_within he _ _))).bind fun _ => ?_
    refine (L.knowing (within_steps (Repositories.Mfa.replaceRecoveryCodes_within h hi _ _))).bind
      fun _ => ?_
    refine (L.knowing (within_steps (Repositories.Mfa.consumeChallenge_within hc _ _))).bind
      fun _ => ?_
    refine (L.knowing (within_steps (Repositories.AuditLogs.record_within h.auditLogs
      _ _ _ _ _))).bind fun _ => ?_
    refine (L.knowing commit_steps).bind fun _ => ?_
    exact (L.openSession _ (hmay _ _) _ _).bind fun _ => L.within .ret

theorem verifyTotp (L : Logins env config J p φ R Known N May) (h : Ordinary φ)
    (hc : Alters φ .authMfaChallenges) (he : Enables φ) (hi : Issues φ)
    (hmay : ∀ id counter, May (some (id, .totp counter)))
    (henrolled : ∀ id counter, May (some (id, .totpEnrollment counter)))
    (challengeToken code : String) :
    Triple J p R (Services.Mfa.verifyTotp env config challengeToken code) fun _ => R := by
  refine (L.within (Repositories.Mfa.challengeKind_within _)).bind fun _ => ?_
  refine (L.within (all_okOr _ _)).bind fun kind => ?_
  split
  · exact L.verifyTotpEnrollment h hc he hi henrolled _ _
  · exact L.verifyTotpLogin h hc hmay _ _

theorem verifyRecoveryLogin (L : Logins env config J p φ R Known N May) (h : Ordinary φ)
    (hc : Alters φ .authMfaChallenges) (hu : Uses φ)
    (hN : ∀ userId code asOf, N (.recoveryLogin userId code asOf))
    (hmay : ∀ id code, May (some (id, .recoveryCode code))) (challengeToken recoveryCode : String) :
    Triple J p R (Services.Mfa.verifyRecoveryLogin env config challengeToken recoveryCode)
      fun _ => R := by
  refine (L.within (Repositories.Mfa.challenge_within _ _)).bind fun _ => ?_
  refine (L.within (all_okOr _ _)).bind fun _ => ?_
  refine (L.within (Repositories.Mfa.recoveryCodes_within _)).bind fun _ => ?_
  refine (L.within (all_okOrThrow _)).bind fun _ => ?_
  refine (L.quiet begin_steps).bind fun _ => ?_
  refine (L.within (Services.Mfa.lockChallenge_within _ _)).bind fun _ => ?_
  refine (L.within (Services.Mfa.spendRecoveryCode_within hu _ _)).bind fun consumed => ?_
  cases consumed with
  | none => exact L.quiet (Services.Mfa.failChallenge_steps h hc _ _)
  | some matchingId =>
    refine (L.within (all_okOrThrow _)).bind fun _ => ?_
    refine (L.within (Repositories.Mfa.consumeChallenge_within hc _ _)).bind fun _ => ?_
    refine (L.within (Repositories.AuthSessions.revokeAllForUser_within h.sessions _)).bind
      fun _ => ?_
    refine (L.telling (note_tells (hN _ _ _))).bind fun _ => ?_
    refine (L.within (Services.Auth.recordSessionRevocation_within h.auditLogs _ _ _ _)).bind
      fun _ => ?_
    refine (L.within (Repositories.AuditLogs.record_within h.auditLogs _ _ _ _ _)).bind
      fun _ => ?_
    refine (L.quiet commit_steps).bind fun _ => ?_
    refine (L.findById _).bind fun _ => L.found.bind fun user => ?_
    exact L.openSession _ (hmay _ _) _ _

theorem finishPasskeyAuthentication (L : Logins env config J p φ R Known N May) (h : Ordinary φ)
    (hc : Alters φ .authMfaChallenges)
    (hmay : ∀ id passkeyId asOf, May (some (id, .passkey passkeyId asOf)))
    (challengeToken credential : String) :
    Triple J p R (Services.Mfa.finishPasskeyAuthentication env config challengeToken credential)
      fun _ => R := by
  refine (L.quiet begin_steps).bind fun _ => ?_
  refine (L.within (Services.Mfa.lockChallenge_within _ _)).bind fun _ => ?_
  refine (L.within (all_okOrThrow _)).bind fun r => ?_
  refine (L.within (Repositories.Mfa.listPasskeys_within _)).bind fun _ => ?_
  cases env.finishPasskeyAuthentication credential r.2 with
  | none => exact L.quiet (Services.Mfa.failChallenge_steps h hc _ _)
  | some result =>
    refine (L.within (all_okOr _ _)).bind fun _ => ?_
    refine (L.within (Repositories.Mfa.updatePasskeyAfterUse_within h _ _)).bind fun _ => ?_
    refine (L.within (Repositories.Mfa.consumeChallenge_within hc _ _)).bind fun _ => ?_
    refine (L.within (Repositories.AuditLogs.record_within h.auditLogs _ _ _ _ _)).bind
      fun _ => ?_
    refine (L.quiet commit_steps).bind fun _ => ?_
    refine (L.findById _).bind fun _ => L.found.bind fun user => ?_
    exact L.openSession _ (hmay _ _ _) _ _

theorem login (L : Logins env config J p φ R Known N May) (h : Ordinary φ)
    (hc : Free φ .authMfaChallenges) (hmay : May none) (req : LoginRequest) (clientIp : String) :
    Triple J p R (Services.Auth.login env config req clientIp) fun _ => R := by
  refine (L.within (Services.Auth.lockedUntil_within _)).bind fun locked => ?_
  cases locked with
  | some locked => exact (L.within utcNow_within).bind fun _ => Triple.fail
  | none =>
    refine (L.findByUsername _).bind fun row => ?_
    simp only
    split
    · refine ((L.quiet (Services.Auth.recordFailedLogin_steps h _ _)).pre fun _ hc => hc.1).bind
        fun locked => ?_
      cases locked with
      | some locked => exact (L.within utcNow_within).bind fun _ => Triple.fail
      | none => exact Triple.fail
    · rename_i user huser
      have hrow : row = some user := (Option.filter_eq_some_iff.1 huser).1
      have hknown : Triple J p (fun c => R c ∧ Known user c)
          (Services.Mfa.beginLogin env user req.remember
            (Services.Auth.throttleKeys env (trim req.username) clientIp))
          fun _ c => R c ∧ Known user c := L.knowing (Services.Mfa.beginLogin_steps h hc _ _ _)
      refine (hknown.pre fun c hc => ⟨hc.1, hc.2 user hrow⟩).bind fun response => ?_
      cases response with
      | some response => exact (L.within .ret).pre fun _ hc => hc.1
      | none => exact (L.opens _ _ _ _ _ hmay).bind fun _ => L.within .ret

end Logins

/-! ## All requests

The walk itself, once for all contracts that are about what sessions carry.
-/

/-- How the request may have completed a challenge when it opens a session. -/
def Request.Completes : Request → Option (Nat × Factor) → Prop
  | .login .., completed => completed = none
  | .verifyTotp .., completed => ∃ id counter,
    completed = some (id, .totp counter) ∨ completed = some (id, .totpEnrollment counter)
  | .verifyRecoveryCode .., completed => ∃ id code, completed = some (id, .recoveryCode code)
  | .finishPasskeyAuthentication .., completed =>
    ∃ id passkeyId asOf, completed = some (id, .passkey passkeyId asOf)
  | _, _ => False

section Serve

variable {J : Judge Table} {p : Nat} {R : Conn Table → Prop}
  {Known : Repositories.Users.Found → Conn Table → Prop} {N : Event → Prop}
  {May : Option (Nat × Factor) → Prop}

/-- **A request changes what it is about, and what every request may change**; what else it does
is to open sessions. -/
theorem Logins.serve (L : Logins env config J p φ R Known N May) (h : Ordinary φ) (req : Request)
    (hw : req.Permitted φ) (hN : ∀ e, req.Notes e → N e)
    (hmay : ∀ completed, req.Completes completed → May completed) :
    Triple J p R (ArcAdmin.serve env config req) fun _ => R := by
  cases hopens : req.opensSession with
  | false => exact L.telling ((serve_tells h hopens hw).mono fun _ ha =>
      ha.mono (fun _ _ _ _ _ hφ => hφ) hN)
  | true =>
    cases req with
    | login req clientIp =>
      refine (L.login h hw (hmay _ rfl) _ _).bind fun outcome => ?_
      cases outcome <;> exact L.within .ret
    | verifyTotp req =>
      exact (L.verifyTotp h hw.1 hw.2.1 hw.2.2 (fun id counter => hmay _ ⟨id, counter, .inl rfl⟩)
        (fun id counter => hmay _ ⟨id, counter, .inr rfl⟩) _ _).bind fun _ => L.within .ret
    | verifyRecoveryCode req =>
      exact (L.verifyRecoveryLogin h hw.1 hw.2 (fun _ _ _ => hN _ trivial)
        (fun id code => hmay _ ⟨id, code, rfl⟩) _ _).bind fun _ => L.within .ret
    | finishPasskeyAuthentication req =>
      exact (L.finishPasskeyAuthentication h hw (fun id passkeyId asOf =>
        hmay _ ⟨id, passkeyId, asOf, rfl⟩) _ _).bind fun _ => L.within .ret
    | _ => cases hopens

/-- **Where new sessions are permitted too**, nothing need be known of users. -/
theorem Carried.logins (hR : Carried J φ R N) (h : Ordinary φ)
    (hs : ∀ userId completed, May completed → Admits env φ userId completed) :
    Logins env config J p φ R (fun _ _ => True) N May where
  carried := hR
  stable _ := Judge.Stable.const True
  step _ _ _ _ _ _ _ := trivial
  learn _ _ _ _ _ := trivial
  opens _ _ _ _ _ hmay := (Triple.speaks hR
    (steps_tells (Services.Auth.createLoginSession_steps h (hs _ _ hmay) _ _ _))).pre
      fun _ hc => hc.1

theorem serve_carried (hR : Carried J φ R) (h : Ordinary φ)
    (hs : ∀ userId completed, Admits env φ userId completed) (req : Request)
    (hw : req.Permitted φ) : Triple J p R (serve env config req) fun _ => R := by
  have L : Logins env config J p φ R (fun _ _ => True) (fun _ => True) fun _ => True :=
    Carried.logins hR h fun _ _ _ => hs _ _
  exact L.serve h req hw (fun _ _ => trivial) fun _ _ => trivial

end Serve

end ArcAdmin
