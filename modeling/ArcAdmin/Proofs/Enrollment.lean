import ArcAdmin.Proofs.LoginChallenges
import ArcAdmin.Proofs.Outside

/-!
# TOTP enrollment

Whether enrollment is offered is decided from a summary that is read before the transaction, and
`enable_totp` overwrites whatever secret is stored. What protects an enrolled secret is that there
is no open enrollment challenge left once TOTP has been enabled: the one that was answered was the
only open login challenge of the user.

* **`Answers`** — whoever changes the enrolled TOTP of a user consumes an open enrollment challenge
  of that user, and issues none;
* **`totp_enrolledOnce`** — where enrollment challenges are committed only for users without TOTP,
  an enrolled secret is never replaced.
-/

namespace ArcAdmin

open ReadCommitted
open Prog.All

/-! ## Enrolled TOTP

What must never change, the challenges by which it could, and the condition on commits that keeps
them from being there.
-/

/-- Since when TOTP is enabled, and with which secret. -/
def totpOf (v : Option MfaSettingsRow) : Option (Nat × Option String) :=
  v.bind fun row => row.totpEnabledAt.map fun t => (t, row.totpSecretCiphertext)

/-- The enrolled TOTP of a user. -/
def enrolledTotp (s : Store Table) (userId : Nat) : Option (Nat × Option String) :=
  totpOf (s.get .userMfaSettings userId)

/-- The challenge is an open enrollment challenge of the user. -/
def OpenEnrollment (s : Store Table) (userId id : Nat) : Prop :=
  ∃ row : ChallengeRow, s.get .authMfaChallenges id = some row ∧ row.userId = userId ∧
    row.kind = "totp_enrollment" ∧ row.consumedAt = none

theorem OpenEnrollment.openLogin {s : Store Table} {userId id : Nat}
    (h : OpenEnrollment s userId id) : OpenLogin s userId id := by
  obtain ⟨row, hrow, huser, hkind, hopen⟩ := h
  refine ⟨row, hrow, huser, ?_, hopen⟩
  rw [hkind]
  decide

/-- **Enrollment challenges are issued only while TOTP is not enabled**: those that the transaction
has inserted are for users without TOTP. -/
def EnrollsUnenrolled (c : Conn Table) : Prop :=
  ∀ e ∈ c.view.rows .authMfaChallenges,
    (c.server.store.get .authMfaChallenges e.1).isNone = true → e.2.kind = "totp_enrollment" →
      enrolledTotp c.server.store e.2.userId = none

instance : DecidablePred EnrollsUnenrolled := fun c => by
  unfold EnrollsUnenrolled
  infer_instance

/-! ## The contract

A commit may change the enrolled TOTP of a user only together with the consumption of an open
enrolment challenge.
-/

/-- The enrolled TOTP is the one that is committed. -/
def TotpKept (_ : Nat) (old new : Option MfaSettingsRow) : Prop := totpOf new = totpOf old

/-- What whoever changes the enrolled TOTP of a user does to the challenges. -/
def Answers (c : Conn Table) (userId : Nat) : Prop :=
  (∃ id, OpenEnrollment c.server.store userId id ∧
      ∀ row : ChallengeRow, c.view.get .authMfaChallenges id = some row → row.consumedAt.isSome) ∧
    c.RowRel .authMfaChallenges ChallengeStored

def enrollmentContract : Contract Table where
  base _ c := c.Wf
  inv _ := True
  guar _ c := ∀ u : Nat, enrolledTotp c.view u ≠ enrolledTotp c.server.store u → Answers c u

theorem enrollmentContract_wf : enrollmentContract.WellFormed := fun _ _ h => h

section Enrollment

variable {p u : Nat} {c c' : Conn Table} {env : External} {config : AuthSessionConfig}

/-- Any change that enables no TOTP. -/
def noEnabling : Change Table := fun t _ _ _ evs => t = .userMfaSettings → Event.totpEnabled ∉ evs

theorem free_noEnabling {t : Table} (ht : t ≠ .userMfaSettings) : Free noEnabling t :=
  fun _ _ _ _ e => absurd e ht

/-- Such a change keeps the enrolled TOTP. -/
theorem mfaSettingsProtocol_kept {v v' : Option MfaSettingsRow} {evs : List Event}
    (hok : mfaSettingsProtocol v v' evs) (hevs : Event.totpEnabled ∉ evs) :
    totpOf v' = totpOf v := by
  cases v' with
  | none => cases v <;> exact hok.elim
  | some new =>
    cases v with
    | none =>
      obtain ⟨_, hnone, _⟩ := hok
      simp [totpOf, hnone]
    | some old =>
      rcases hok with ⟨_, hat, hsecret, _⟩ | ⟨hev, _⟩ | ⟨_, _, hat, hsecret, _⟩
      · simp [totpOf, hat, hsecret]
      · exact absurd (by simp [hev]) hevs
      · simp [totpOf, hat, hsecret]

theorem totpKept_guar (h : c.RowRel .userMfaSettings TotpKept) :
    (enrollmentContract.judge p).guar c :=
  ⟨fun u hne => absurd (h u) hne, fun _ _ => trivial⟩

/-- Whatever enables no TOTP is carried past. -/
theorem carried_totp : Carried (enrollmentContract.judge p) noEnabling
    fun c => c.RowRel .userMfaSettings TotpKept := by
  refine Contract.carried_rowRel enrollmentContract_wf (fun _ _ => rfl) ?_ fun c _ h => totpKept_guar h
  intro id old v v' evs hchange hok hkept
  exact (mfaSettingsProtocol_kept hok (hchange rfl)).trans hkept

theorem ordinary_noEnabling : Ordinary noEnabling where
  auditLogs := free_noEnabling (by decide)
  loginAttempts := free_noEnabling (by decide)
  settings _ _ _ _ := List.not_mem_nil
  reauthentications _ _ _ _ _ := by simp
  passkeys _ _ _ := free_noEnabling (by decide) _ _ _ _
  stepUpTokens := free_noEnabling (by decide)
  moduleUnlocks := free_noEnabling (by decide)
  sessions := (free_noEnabling (by decide)).edits
  users _ _ _ := free_noEnabling (by decide) _ _ _ _
  passwords _ _ _ := free_noEnabling (by decide) _ _ _ _
  userRoles := (free_noEnabling (by decide)).edits
  rolePermissions := (free_noEnabling (by decide)).edits

/-- Outside an enrollment. -/
theorem totpLogins : Logins env config (enrollmentContract.judge p) p noEnabling
    (fun c => c.RowRel .userMfaSettings TotpKept) fun _ _ => True :=
  Carried.logins carried_totp ordinary_noEnabling fun _ _ _ =>
    admits_of_free (free_noEnabling (by decide)) _ _

/-! ## The transaction that enrolls

`verify_totp_enrollment`, from the lock on the challenge to its commit, with the assertions in
between.
-/

/-- No challenge has been changed. -/
def SameChallenge (_ : Nat) (old new : Option ChallengeRow) : Prop := new = old

/-- The enrolled TOTP of everybody else is the one that is committed. -/
def TotpKeptBut (u id : Nat) (old new : Option MfaSettingsRow) : Prop :=
  id ≠ u → totpOf new = totpOf old

theorem SameChallenge.refl (id : Nat) (v : Option ChallengeRow) : SameChallenge id v v := rfl

theorem TotpKept.refl (id : Nat) (v : Option MfaSettingsRow) : TotpKept id v v := rfl

theorem TotpKeptBut.refl (u id : Nat) (v : Option MfaSettingsRow) : TotpKeptBut u id v v :=
  fun _ => rfl

/-- Before the challenge is locked: nothing has happened. -/
def Unanswered (c : Conn Table) : Prop :=
  c.RowRel .authMfaChallenges SameChallenge ∧ c.RowRel .userMfaSettings TotpKept

/-- The enrollment challenge of `u` is locked, and TOTP may have been enabled for `u`. -/
def Answering (u : Nat) (challenge : Repositories.Mfa.Challenge) (c : Conn Table) : Prop :=
  c.RowRel .authMfaChallenges SameChallenge ∧ HoldsChallenge challenge c ∧
    c.RowRel .userMfaSettings (TotpKeptBut u)

/-- The enrollment challenge of `u` has been consumed. -/
def Answered (u : Nat) (challenge : Repositories.Mfa.Challenge) (c : Conn Table) : Prop :=
  (c.Owns ⟨.authMfaChallenges, challenge.id⟩ ∧
      c.server.store.get .authMfaChallenges challenge.id = some challenge.row ∧
      ∀ row : ChallengeRow, c.view.get .authMfaChallenges challenge.id = some row →
        row.consumedAt.isSome) ∧
    c.RowRel .authMfaChallenges ChallengeStored ∧ c.RowRel .userMfaSettings (TotpKeptBut u)

theorem Unanswered.of_begun (h : c.Begun) : Unanswered c :=
  ⟨RowRel.of_view_eq SameChallenge.refl fun id => by rw [h.view_eq],
    RowRel.of_view_eq TotpKept.refl fun id => by rw [h.view_eq]⟩

theorem stable_unanswered : (enrollmentContract.judge p).Stable Unanswered :=
  (Contract.stable_rowRel (t := Table.authMfaChallenges) enrollmentContract_wf SameChallenge.refl).and
    (Contract.stable_rowRel (t := Table.userMfaSettings) enrollmentContract_wf TotpKept.refl)

theorem stable_answering {challenge : Repositories.Mfa.Challenge} :
    (enrollmentContract.judge p).Stable (Answering u challenge) :=
  (Contract.stable_rowRel (t := Table.authMfaChallenges) enrollmentContract_wf SameChallenge.refl).and
    ((Contract.stable_owned (t := Table.authMfaChallenges) enrollmentContract_wf
      fun v => v = some challenge.row).and
      (Contract.stable_rowRel (t := Table.userMfaSettings) enrollmentContract_wf
        (TotpKeptBut.refl u)))

theorem stable_answered {challenge : Repositories.Mfa.Challenge} :
    (enrollmentContract.judge p).Stable (Answered u challenge) := by
  refine Judge.Stable.and ?_ ((Contract.stable_rowRel enrollmentContract_wf fun _ _ h => h).and
    (Contract.stable_rowRel (t := Table.userMfaSettings) enrollmentContract_wf
        (TotpKeptBut.refl u)))
  rintro c c' hr ⟨hown, hstore, hview⟩
  obtain ⟨hsame, hsame'⟩ := hr.2.2.2.2.get_of_owns enrollmentContract_wf.commits hown
  refine ⟨hr.2.2.2.2.owns hown, hsame.trans hstore, ?_⟩
  rw [hsame']
  exact hview

/-- Any change besides those of challenges, and of the enrolled TOTP of others. -/
def enrolling (u : Nat) : Change Table
  | .authMfaChallenges, _, _, _, _ => False
  | .userMfaSettings, id, _, _, evs => id = u ∨ Event.totpEnabled ∉ evs
  | _, _, _, _, _ => True

theorem frozen_enrolling : Frozen (enrolling u) .authMfaChallenges := fun _ _ _ _ h => h

theorem free_enrolling {t : Table} (hc : t ≠ .authMfaChallenges) (hs : t ≠ .userMfaSettings) :
    Free (enrolling u) t := by
  intro id old new evs
  cases t <;> trivial

theorem totpKeptBut_framed (hf : Framed (enrolling u) c c')
    (h : c.RowRel .userMfaSettings (TotpKeptBut u)) : c'.RowRel .userMfaSettings (TotpKeptBut u) := by
  refine RowRel.framed (fun id old v v' evs hchange hok hold hne => ?_) h hf
  rcases hchange with rfl | hevs
  · exact absurd rfl hne
  · exact (mfaSettingsProtocol_kept hok hevs).trans (hold hne)

theorem Answering.frameClosed {challenge : Repositories.Mfa.Challenge} :
    FrameClosed (enrolling u) (Answering u challenge) := by
  rintro c c' hf ⟨hsame, ⟨hown, hview⟩, hkept⟩
  refine ⟨fun id => ?_, ⟨hf.owns hown, ?_⟩, totpKeptBut_framed hf hkept⟩
  · rw [hf.store, hf.view_get frozen_enrolling id]
    exact hsame id
  · rw [hf.view_get frozen_enrolling challenge.id]
    exact hview

theorem Answered.frameClosed {challenge : Repositories.Mfa.Challenge} :
    FrameClosed (enrolling u) (Answered u challenge) := by
  rintro c c' hf ⟨⟨hown, hstore, hview⟩, hstored, hkept⟩
  refine ⟨⟨hf.owns hown, ?_, ?_⟩, fun id => ?_, totpKeptBut_framed hf hkept⟩
  · rw [hf.store]
    exact hstore
  · rw [hf.view_get frozen_enrolling challenge.id]
    exact hview
  · rw [hf.store, hf.view_get frozen_enrolling id]
    exact hstored id

/-- **The challenge is consumed.** -/
theorem consumeChallenge_answers (challenge : Repositories.Mfa.Challenge) (factor : Factor) :
    Triple (enrollmentContract.judge p) p (Answering u challenge)
      (Repositories.Mfa.consumeChallenge challenge.id factor) fun _ => Answered u challenge := by
  have hexec : Triple (enrollmentContract.judge p) p (Answering u challenge)
      ((Repositories.Mfa.consumeChallengeStmt challenge.id factor).exec : Db _)
      fun _ => Answered u challenge := by
    refine Triple.updateRow (t := Table.authMfaChallenges) challenge.id (σ := fun _ => True)
      stable_answering (fun _ => stable_answered) (fun _ i _ hi => eq_of_beq hi)
      (fun _ _ _ => trivial) ?_
    rintro s c _ _ ⟨hsame, ⟨hown, hview⟩, hkept⟩
    obtain ⟨tx, htx, hlocked⟩ := hown
    refine ⟨tx, challenge.row, htx, hview, beq_self_eq_true _, ⟨⟨tx.write _ _ _ _ _, rfl,
      hlocked.write⟩, (hsame challenge.id).symm.trans hview, ?_⟩, fun id hnone => ?_, fun id hne => ?_⟩
    · intro row hrow
      rw [Conn.view_some, Tx.view_write, Store.get_set_self] at hrow
      cases hrow
      rfl
    · obtain ⟨otx, srv⟩ := c
      cases htx
      rw [Conn.view_some, Tx.view_write, Store.get_set]
      by_cases hid : id = challenge.id
      · -- the consumed challenge is committed
        subst hid
        have hstored := (hsame challenge.id).symm.trans hview
        rw [hnone] at hstored
        cases hstored
      · rw [if_neg hid]
        exact (hsame id).trans hnone
    · obtain ⟨otx, srv⟩ := c
      cases htx
      rw [Conn.view_some, Tx.view_write, Store.get_set_of_table_ne _ _ _ _ (by decide)]
      exact hkept id hne
  exact hexec.bind fun _ => Triple.ret stable_answered fun _ _ hc => hc

/-- **A transaction that has consumed the challenge of `u` may commit.** -/
theorem commit_answered {challenge : Repositories.Mfa.Challenge}
    (hopen : challenge.row.kind = "totp_enrollment" ∧ challenge.row.consumedAt = none) :
    Triple (enrollmentContract.judge p) p (Answered challenge.row.userId challenge)
      (commitTx : Db Unit) fun _ c => c.RowRel .userMfaSettings TotpKept := by
  refine (Triple.commitTx Contract.private_judge stable_answered fun c _ hc => ?_).post
    fun _ c htx => RowRel.of_view_eq TotpKept.refl fun id => by rw [Conn.view_of_none htx]
  refine ⟨fun u hne => ?_, fun _ _ => trivial⟩
  obtain ⟨⟨_, hstore, hview⟩, hstored, hkept⟩ := hc
  have hu : u = challenge.row.userId := by
    by_contra hother
    exact hne (hkept u hother)
  subst hu
  exact ⟨⟨challenge.id, ⟨challenge.row, hstore, rfl, hopen.1, hopen.2⟩, hview⟩, hstored⟩

/-- Statements between the lock and the consumption. -/
theorem whileAnswering {α : Type} {m : Db α} {challenge : Repositories.Mfa.Challenge}
    (hm : m.All (Act.Within (enrolling u))) :
    Triple (enrollmentContract.judge p) p (Answering u challenge) m fun _ => Answering u challenge :=
  Triple.within stable_answering Answering.frameClosed hm

theorem ordinary_enrolling : Ordinary (enrolling u) where
  auditLogs := free_enrolling (by decide) (by decide)
  loginAttempts := free_enrolling (by decide) (by decide)
  settings _ _ _ := .inr List.not_mem_nil
  reauthentications _ _ _ _ := .inr (by simp)
  passkeys _ _ _ := free_enrolling (by decide) (by decide) _ _ _ _
  stepUpTokens := free_enrolling (by decide) (by decide)
  moduleUnlocks := free_enrolling (by decide) (by decide)
  sessions := (free_enrolling (by decide) (by decide)).edits
  users _ _ _ := free_enrolling (by decide) (by decide) _ _ _ _
  passwords _ _ _ := free_enrolling (by decide) (by decide) _ _ _ _
  userRoles := (free_enrolling (by decide) (by decide)).edits
  rolePermissions := (free_enrolling (by decide) (by decide)).edits

theorem enableTotp_enrolling (ciphertext : String) :
    (Repositories.Mfa.enableTotp u ciphertext).All (Act.Within (enrolling u)) :=
  .bind (Prog.All.update (fun _ _ _ hid => Or.inl (eq_of_beq hid)) trivial) fun _ => .ret

/-- **`verify_totp_enrollment`.** -/
theorem verifyTotpEnrollment_answers (challengeToken code : String) :
    Triple (enrollmentContract.judge p) p (fun c => c.RowRel .userMfaSettings TotpKept)
      (Services.Mfa.verifyTotpEnrollment env config challengeToken code)
      fun _ c => c.RowRel .userMfaSettings TotpKept := by
  have L : Logins env config (enrollmentContract.judge p) p noEnabling
    (fun c => c.RowRel .userMfaSettings TotpKept) fun _ _ => True := totpLogins
  have hφ := ordinary_noEnabling
  have hchallenges : Free noEnabling .authMfaChallenges := free_noEnabling (by decide)
  refine (L.quiet begin_steps).bind fun _ => ?_
  refine (L.within (Services.Mfa.lockChallenge_within _ _)).bind fun _ => ?_
  refine (L.within (all_okOrThrow _)).bind fun _ => ?_
  refine (L.within (all_okOr _ _)).bind fun _ => ?_
  refine ((L.checkCode _ _ _).post fun _ _ hc => hc.1).bind fun r => ?_
  obtain ⟨user, counter⟩ := r
  cases counter with
  | none => exact L.quiet (Services.Mfa.failChallenge_steps hφ hchallenges.alters _ _)
  | some counter =>
    refine (L.quiet rollback_steps).bind fun _ => ?_
    refine (L.within Services.Mfa.generateRecoveryCodes_within).bind fun codes => ?_
    refine (L.within (Services.Mfa.hashRecoveryCodes_within _)).bind fun hashes => ?_
    -- the transaction that enrolls
    have hbegin : Triple (enrollmentContract.judge p) p
        (fun c => c.RowRel .userMfaSettings TotpKept) (beginTx : Db Unit) fun _ => Unanswered :=
      (Triple.beginTx Contract.private_judge).conseq (fun _ _ => trivial)
        fun _ _ hc => .of_begun hc
    refine hbegin.bind fun _ => ?_
    have hlock : ∀ tx s (id : Nat) m, Unanswered ⟨some tx, s⟩ →
        Unanswered ⟨some (tx.acquire ⟨.authMfaChallenges, id⟩ m), s⟩ := fun _ _ _ _ h => h
    refine (Services.Mfa.lockChallenge_holds stable_unanswered
      (fun id φ => Contract.stable_owned (t := Table.authMfaChallenges) enrollmentContract_wf φ) hlock _ _).bind
      fun challenge => Triple.assuming fun hopen => ?_
    refine Triple.pre (P := Answering challenge.row.userId challenge) ?_
      fun c hc => ⟨hc.1.1, hc.2, fun id _ => hc.1.2 id⟩
    refine (whileAnswering (all_okOrThrow _)).bind fun state => ?_
    refine (whileAnswering (enableTotp_enrolling _)).bind fun _ => ?_
    refine (whileAnswering (Repositories.Mfa.replaceRecoveryCodes_within ordinary_enrolling
      (.of_free (free_enrolling (by decide) (by decide))) _ _)).bind fun _ => ?_
    refine (consumeChallenge_answers challenge _).bind fun _ => ?_
    refine (Triple.within stable_answered Answered.frameClosed
      (Repositories.AuditLogs.record_within ordinary_enrolling.auditLogs _ _ _ _ _)).bind
        fun _ => ?_
    refine (commit_answered hopen).bind fun _ => ?_
    exact ((L.openSession _ trivial _ _).pre fun _ hc => ⟨hc, trivial⟩).bind fun _ => L.within .ret

/-- **Every request that changes the enrolled TOTP answers an enrollment challenge.** -/
theorem requests_answer (env : External) (config : AuthSessionConfig) {s₀ : Server Table}
    (h₀ : s₀.Wf) : enrollmentContract.Kept (serve env config) s₀ fun _ _ _ _ => True where
  base _ hC p := hC.wf h₀ p
  init := trivial
  advance _ _ _ _ := trivial
  prog p req := by
    have L : Logins env config (enrollmentContract.judge p) p noEnabling
      (fun c => c.RowRel .userMfaSettings TotpKept) fun _ _ => True := totpLogins
    have hfree : ∀ t : Table, t ≠ .userMfaSettings → Free noEnabling t := fun _ ht =>
      free_noEnabling ht
    have hserve : Triple (enrollmentContract.judge p) p
        (fun c => c.RowRel .userMfaSettings TotpKept) (serve env config req)
        fun _ c => c.RowRel .userMfaSettings TotpKept := by
      by_cases henrolls : req.enrolls = false
      · refine L.serve ordinary_noEnabling req (Request.permitted (fun t ht => hfree t ?_)
          (fun _ _ => hfree _ (by decide) _ _ _ _) (fun _ => hfree _ (by decide))
          (fun _ _ _ => hfree _ (by decide) _ _ _ _) (hfree _ (by decide)).alters
          (fun _ => hfree _ (by decide)) (fun _ => .of_free (hfree _ (by decide)))
          fun he => absurd (he.symm.trans henrolls) (by decide)) (fun _ _ => trivial)
          fun _ _ => trivial
        rintro rfl
        revert ht
        decide
      · cases req with
        | verifyTotp req =>
          refine Triple.bind ?_ fun _ => L.within .ret
          refine (L.within (Repositories.Mfa.challengeKind_within _)).bind fun _ => ?_
          refine (L.within (all_okOr _ _)).bind fun kind => ?_
          split
          · exact verifyTotpEnrollment_answers _ _
          · exact L.verifyTotpLogin ordinary_noEnabling (hfree _ (by decide)).alters
              (fun _ _ => trivial) _ _
        | _ => exact absurd rfl henrolls
    exact hserve.conseq (fun c hc => L.carried.clean c (.inl hc)) fun _ _ _ => trivial

end Enrollment

/-! ## Runs

The only open challenge has been consumed, none is issued for a user with TOTP, and none that is
closed opens again. So there is nothing left that could be answered.
-/

section Runs

variable {env : External} {config : AuthSessionConfig} {s₀ : Server Table}
  {C C' C₁ C₂ C₃ : Db.Config}

/-- The value is no open enrollment challenge of the user. -/
def NotEnrolling (userId : Nat) (v : Option ChallengeRow) : Prop :=
  ∀ row, v = some row →
    ¬(row.userId = userId ∧ row.kind = "totp_enrollment" ∧ row.consumedAt = none)

theorem NotEnrolling.kept {userId : Nat} {r : ChallengeRow} {new : Option ChallengeRow}
    {evs : List Event} (hok : challengeProtocol (some r) new evs)
    (hr : NotEnrolling userId (some r)) : NotEnrolling userId new := by
  rintro row rfl ⟨huser, hkind, hopen⟩
  obtain ⟨_, huser', hkind', hclosed⟩ := challengeProtocol_update hok
  refine hr r rfl ⟨huser' ▸ huser, hkind' ▸ hkind, ?_⟩
  cases hc : r.consumedAt with
  | none => rfl
  | some t =>
    have hsome := hclosed (by rw [hc]; rfl)
    rw [hopen] at hsome
    cases hsome

/-- **An open enrollment challenge was open before**, if it was stored. -/
theorem openEnrollment_before {cond : Nat → Conn Table → Prop} (h₀ : s₀.Wf)
    (hC : ReachableIf (serve env config) cond s₀ C) (hstep : Step (serve env config) cond C C')
    {userId id : Nat} {r : ChallengeRow}
    (hold : C.server.store.get .authMfaChallenges id = some r)
    (hopen : OpenEnrollment C'.server.store userId id) :
    OpenEnrollment C.server.store userId id := by
  by_contra hclosed
  have hnot : NotEnrolling userId (some r) := by
    rintro row hrow ⟨huser, hkind, hnone⟩
    cases hrow
    exact hclosed ⟨r, hold, huser, hkind, hnone⟩
  have hkept : NotEnrolling userId (C'.server.store.get .authMfaChallenges id) :=
    Steps.row_kept (t := Table.authMfaChallenges) (F := NotEnrolling userId) h₀ hC rfl
      (fun _ _ _ hok hr => NotEnrolling.kept hok hr) hold hnot (.single hstep)
  obtain ⟨row, hrow, huser, hkind, hnone⟩ := hopen
  exact hkept row hrow ⟨huser, hkind, hnone⟩

/-- **TOTP is enrolled for good**: nobody can answer an enrollment challenge of the user any more. -/
structure Secured (s : Store Table) (userId : Nat) (e : Nat × Option String) : Prop where
  enrolled : enrolledTotp s userId = some e
  closed : ∀ id, ¬OpenEnrollment s userId id

/-- **The commit that enrolls consumes the only open challenge.** -/
theorem secured_of_enrolls {cond : Nat → Conn Table → Prop} (h₀ : s₀.Wf)
    (hindex : s₀.store.Distinct .authMfaChallenges)
    (hC : ReachableIf (serve env config) cond s₀ C) (hstep : Step (serve env config) cond C C')
    {userId : Nat} {e : Nat × Option String}
    (henrolled : enrolledTotp C'.server.store userId = some e)
    (hnew : enrolledTotp C.server.store userId ≠ some e) : Secured C'.server.store userId e := by
  refine ⟨henrolled, fun id hopen => ?_⟩
  have hreach : Reachable (serve env config) s₀ C := ReachableIf.reachable hC
  rcases Contract.guar_of_step (requests_answer env config h₀) hreach hstep with
    ⟨hstore, _⟩ | ⟨p, tx, _, hserver, ⟨_, howes⟩, _⟩
  · rw [hstore] at henrolled
    exact hnew henrolled
  · have hchanged : enrolledTotp (⟨some tx, C.server⟩ : Conn Table).view userId ≠
        enrolledTotp C.server.store userId := by
      rw [hserver] at henrolled
      have hview : enrolledTotp (⟨some tx, C.server⟩ : Conn Table).view userId = some e := henrolled
      rw [hview]
      exact hnew.symm
    obtain ⟨⟨answered, hanswered, hconsumed⟩, hstored⟩ := howes userId hchanged
    have ⟨row, hrow, huser, hkind, hnone⟩ := hopen
    have hview : (⟨some tx, C.server⟩ : Conn Table).view.get .authMfaChallenges id = some row := by
      rw [hserver] at hrow
      exact hrow
    cases hold : C.server.store.get .authMfaChallenges id with
    | none =>
      have hgone := hstored id hold
      rw [hview] at hgone
      cases hgone
    | some r =>
      -- it was open before, so it is the one that has been answered
      have hbefore := openEnrollment_before h₀ hC hstep hold hopen
      have hsame : id = answered :=
        openLogin_unique h₀ hindex hreach hbefore.openLogin hanswered.openLogin
      subst hsame
      have hsome := hconsumed row hview
      rw [hnone] at hsome
      cases hsome

/-- **It stays enrolled**, where enrollment challenges are issued only while TOTP is not enabled. -/
theorem Secured.step (h₀ : s₀.Wf)
    (hC : ReachableIf (serve env config) (fun _ c => EnrollsUnenrolled c) s₀ C)
    (hstep : Step (serve env config) (fun _ c => EnrollsUnenrolled c) C C') {userId : Nat}
    {e : Nat × Option String} (h : Secured C.server.store userId e) :
    Secured C'.server.store userId e := by
  rcases Contract.guar_of_step (requests_answer env config h₀) (ReachableIf.reachable hC) hstep with
    ⟨hstore, _⟩ | ⟨p, tx, _, hserver, ⟨_, howes⟩, hcond⟩
  · rw [hstore]
    exact h
  · have hkept : enrolledTotp (⟨some tx, C.server⟩ : Conn Table).view userId =
        enrolledTotp C.server.store userId := by
      by_contra hchanged
      obtain ⟨⟨answered, hanswered, _⟩, _⟩ := howes userId hchanged
      exact h.closed answered hanswered
    refine ⟨?_, fun id hopen => ?_⟩
    · rw [hserver]
      exact hkept.trans h.enrolled
    · cases hold : C.server.store.get .authMfaChallenges id with
      | some r => exact h.closed id (openEnrollment_before h₀ hC hstep hold hopen)
      | none =>
        obtain ⟨row, hrow, huser, hkind, _⟩ := hopen
        rw [hserver] at hrow
        have hissued := hcond (id, row) (Store.mem_rows.2 hrow) (by rw [hold]; rfl) hkind
        have hnone : enrolledTotp C.server.store userId = none := by
          rw [← huser]
          exact hissued
        rw [h.enrolled] at hnone
        cases hnone

/-- **TOTP enrollment happens once**, where no enrollment challenge is committed for a user whose
TOTP is enabled: in every run of the service whose commits respect that, once a commit has changed
the enrolled TOTP of a user, neither the secret nor the time of enrollment ever changes again. -/
theorem totp_enrolledOnce (env : External) (config : AuthSessionConfig) (h₀ : s₀.Wf)
    (hindex : s₀.store.Distinct .authMfaChallenges)
    (hC : ReachableIf (serve env config) (fun _ c => EnrollsUnenrolled c) s₀ C₁)
    (hstep : Step (serve env config) (fun _ c => EnrollsUnenrolled c) C₁ C₂) (userId : Nat)
    (e : Nat × Option String) (henrolled : enrolledTotp C₂.server.store userId = some e)
    (hnew : enrolledTotp C₁.server.store userId ≠ some e)
    (hs : Steps (serve env config) (fun _ c => EnrollsUnenrolled c) C₂ C₃) :
    enrolledTotp C₃.server.store userId = some e := by
  have hsecured : Secured C₃.server.store userId e := by
    induction hs with
    | refl => exact secured_of_enrolls h₀ hindex hC hstep henrolled hnew
    | tail hs' hlast ih => exact ih.step h₀ ((hC.tail hstep).trans hs') hlast
  exact hsecured.enrolled

end Runs

/-! ### Two enrollments

A run that meets the condition, and one in which a second login has read the summary too early.
-/

/-- The sample installation, where `clerk` has become a super administrator without TOTP. -/
def promoted : Server Table :=
  { Sample.server with store := Store.ofRows (Sample.rows ++ [Sample.holds 12 1]) }

theorem promoted_wf : promoted.Wf := Server.wf_ofRows (by decide)

theorem promoted_distinct : promoted.store.Distinct .authMfaChallenges := by
  intro id id' r r' _ hr
  rw [Store.get_of_rows_nil (t := Table.authMfaChallenges) (by decide) id] at hr
  cases hr

/-- `clerk` logs in and answers the enrollment challenge, up to the commit. -/
def enrolling₁ : Stage Table ApiError Reply Request :=
  Stage.afterIf (fun _ c => EnrollsUnenrolled c) (serve Sample.external Sample.config) promoted
    [.start (Sample.login "clerk"), .run 0 200, .start (Sample.verifyTotp 23), .run 1 53]

/-- The commit. -/
def enrolled₁ : Stage Table ApiError Reply Request :=
  enrolling₁.nextIf (fun _ c => EnrollsUnenrolled c) 1

/-- The rest, and another login. -/
def later₁ : Stage Table ApiError Reply Request :=
  enrolled₁.resumeIf (fun _ c => EnrollsUnenrolled c) (serve Sample.external Sample.config)
    [.run 1 200, .start (Sample.login "clerk"), .run 2 200]

theorem enrolling₁_totp : enrolledTotp enrolling₁.server.store 12 = none := by decide +kernel

theorem enrolled₁_totp : enrolledTotp enrolled₁.server.store 12 =
    some (1000000 * second, some (Sample.token 20 0)) := by decide +kernel

theorem totp_enrolledOnce_sample :
    enrolledTotp later₁.config.server.store 12 =
      some (1000000 * second, some (Sample.token 20 0)) := by
  have hreach : ReachableIf (serve Sample.external Sample.config) (fun _ c => EnrollsUnenrolled c)
      promoted enrolling₁.config := Stage.reachable_afterIf _ _ _ _
  have hne : enrolled₁ ≠ enrolling₁ := by
    intro h
    have hsame := enrolled₁_totp
    rw [h, enrolling₁_totp] at hsame
    cases hsame
  have hstep : Step (serve Sample.external Sample.config) (fun _ c => EnrollsUnenrolled c)
      enrolling₁.config enrolled₁.config := Stage.step_nextIf _ _ _ 1 hne
  have hsteps : Steps (serve Sample.external Sample.config) (fun _ c => EnrollsUnenrolled c)
      enrolled₁.config later₁.config := Stage.steps_resumeIf _ _ _ _
  refine totp_enrolledOnce Sample.external Sample.config promoted_wf promoted_distinct hreach hstep
    12 _ ?_ ?_ hsteps
  · rw [Stage.server_config]
    exact enrolled₁_totp
  · rw [Stage.server_config, enrolling₁_totp]
    exact fun h => by cases h

/-- The same, while a second login of `clerk` has read that TOTP is not enabled. -/
def enrolling₂ : Stage Table ApiError Reply Request :=
  Stage.after (serve Sample.external Sample.config) promoted
    [.start (Sample.login "clerk"), .run 0 200, .start (Sample.login "clerk"), .run 1 5,
      .start (Sample.verifyTotp 23), .run 2 53]

def enrolled₂ : Stage Table ApiError Reply Request := enrolling₂.next 2

/-- The second login goes on, and its enrollment challenge is answered too. -/
def replaced₂ : Stage Table ApiError Reply Request :=
  enrolled₂.resume (serve Sample.external Sample.config)
    [.run 2 200, .run 1 200, .start (Sample.verifyTotp 43), .run 3 200]

theorem enrolling₂_totp : enrolledTotp enrolling₂.server.store 12 = none := by decide +kernel

theorem enrolled₂_totp : enrolledTotp enrolled₂.server.store 12 =
    some (1000000 * second, some (Sample.token 20 0)) := by decide +kernel

theorem replaced₂_totp : enrolledTotp replaced₂.server.store 12 =
    some (1000000 * second, some (Sample.token 40 0)) := by decide +kernel

/-- The enrolled secret has been replaced. -/
theorem totp_enrolledTwice :
    ∃ C₁ C₂ C₃ : Db.Config, Reachable (serve Sample.external Sample.config) promoted C₁ ∧
      Step (serve Sample.external Sample.config) (fun _ _ => True) C₁ C₂ ∧
      Steps (serve Sample.external Sample.config) (fun _ _ => True) C₂ C₃ ∧
      ∃ e, enrolledTotp C₂.server.store 12 = some e ∧ enrolledTotp C₁.server.store 12 ≠ some e ∧
        enrolledTotp C₃.server.store 12 ≠ some e := by
  have hreach : Reachable (serve Sample.external Sample.config) promoted enrolling₂.config :=
    Stage.reachable_after _ _ _
  have hne : enrolled₂ ≠ enrolling₂ := by
    intro h
    have hsame := enrolled₂_totp
    rw [h, enrolling₂_totp] at hsame
    cases hsame
  have hstep : Step (serve Sample.external Sample.config) (fun _ _ => True) enrolling₂.config
      enrolled₂.config := Stage.step_next _ _ 2 hne
  have hsteps : Steps (serve Sample.external Sample.config) (fun _ _ => True) enrolled₂.config
      replaced₂.config := Stage.steps_resume _ _ _
  refine ⟨_, _, _, hreach, hstep, hsteps, (1000000 * second, some (Sample.token 20 0)), ?_, ?_, ?_⟩
  · rw [Stage.server_config]
    exact enrolled₂_totp
  · rw [Stage.server_config, enrolling₂_totp]
    exact fun h => by cases h
  · rw [Stage.server_config, replaced₂_totp]
    decide

end ArcAdmin
