import ArcAdmin.ReadCommitted.Unique
import ArcAdmin.ReadCommitted.Fate
import ArcAdmin.ReadCommitted.Script
import ArcAdmin.ReadCommitted.Rules
import ArcAdmin.Proofs.Logins
import ArcAdmin.Sample

/-!
# At most one live login challenge

The partial unique index on the open challenges of a user keeps every other one out, whatever the
transactions see of each other: an insert waits for whoever is about to decide on a challenge beside
its own. A new challenge is open when it is committed, so that all others of the user are closed
then, and a closed challenge is never opened again.

* **`liveLogin_unique`** — the main theorem, over all interleavings of all requests;
* **`ClosedFor.kept`** — a challenge that has been consumed never becomes live again.
-/

namespace ArcAdmin

open ReadCommitted

/-! ## Open and live challenges

A challenge that has expired stays in the unique index until it is consumed, so the index speaks
about open ones, live or not.
-/

/-- The user has an open challenge of one of the kinds that a login passes through. -/
def OpenLogin (s : Store Table) (userId id : Nat) : Prop :=
  ∃ row : ChallengeRow, s.get .authMfaChallenges id = some row ∧ row.userId = userId ∧
    isLoginKind row.kind = true ∧ row.consumedAt = none

/-- The challenge is open and has not expired. -/
def LiveLogin (s : Server Table) (userId id : Nat) : Prop :=
  ∃ row : ChallengeRow, s.store.get .authMfaChallenges id = some row ∧ row.userId = userId ∧
    isLoginKind row.kind = true ∧ row.consumedAt = none ∧ s.clock < row.expiresAt

theorem LiveLogin.openLogin {s : Server Table} {userId id : Nat} (h : LiveLogin s userId id) :
    OpenLogin s.store userId id := by
  obtain ⟨row, hrow, huser, hkind, hopen, _⟩ := h
  exact ⟨row, hrow, huser, hkind, hopen⟩

/-- **An update keeps a challenge's token, user and kind**, and closes it for good. -/
theorem challengeProtocol_update {old new : ChallengeRow} {evs : List Event}
    (h : challengeProtocol (some old) (some new) evs) :
    new.tokenHash = old.tokenHash ∧ new.userId = old.userId ∧ new.kind = old.kind ∧
      (old.consumedAt.isSome → new.consumedAt.isSome) := by
  obtain ⟨hnew, hcases⟩ := h
  refine ⟨by rw [hnew], by rw [hnew], by rw [hnew], fun hold => ?_⟩
  rcases hcases with ⟨_, _, hlast, hkept⟩ | ⟨_, _, _, hclosed⟩ | ⟨_, _, _, _, hclosed⟩
  · by_cases hmax : old.attemptCount + 1 ≥ old.maxAttempts
    · exact hlast hmax
    · have hlt : old.attemptCount + 1 < old.maxAttempts := by omega
      rw [hkept hlt]
      exact hold
  · exact hclosed
  · exact hclosed

/-- The unique indexes of the challenges are ones that the protocol respects. -/
theorem challengeIndex : Index (T := Table) .authMfaChallenges where
  symm r r' := by
    show Table.clash .authMfaChallenges r r' = Table.clash .authMfaChallenges r' r
    simp only [Table.clash]
    rw [Bool.eq_iff_iff]
    simp only [Bool.or_eq_true, Bool.and_eq_true, beq_iff_eq]
    constructor <;> rintro (h | ⟨⟨⟨⟨h₁, h₂⟩, h₃⟩, h₄⟩, h₅⟩) <;> simp_all
  serial _ := rfl
  shrinks id r r' x evs hok hclash := by
    obtain ⟨htoken, huser, hkind, hclosed⟩ := challengeProtocol_update hok
    have hopen : r'.consumedAt.isNone = true → r.consumedAt.isNone = true := by
      intro hnone
      cases hr : r.consumedAt with
      | none => rfl
      | some t =>
        have hsome := hclosed (by rw [hr]; rfl)
        cases hr' : r'.consumedAt with
        | none => rw [hr'] at hsome; cases hsome
        | some t' => rw [hr'] at hnone; cases hnone
    show Table.clash .authMfaChallenges r' x = false
    have hclash' : Table.clash .authMfaChallenges r x = false := hclash
    simp only [Table.clash, Bool.or_eq_false_iff, htoken, huser, hkind] at hclash' ⊢
    refine ⟨hclash'.1, ?_⟩
    by_contra htrue
    have hall := Bool.not_eq_false _ ▸ htrue
    simp only [Bool.and_eq_true] at hall
    have hr : r.consumedAt.isNone = true := hopen hall.1.1.1.2
    simp [hall, hr] at hclash'

/-! ## A new challenge is open

The statement inserts an open row, and the rest of its transaction does not touch it.
-/

/-- The transaction has inserted no challenge. -/
def ChallengeStored (_ : Nat) (old new : Option ChallengeRow) : Prop := old = none → new = none

/-- The challenges that the transaction has inserted are open. -/
def ChallengeOpened (_ : Nat) (old new : Option ChallengeRow) : Prop :=
  old = none → ∀ row, new = some row → row.consumedAt = none

/-- Whoever commits has inserted open challenges only. -/
def openingContract : Contract Table where
  base _ c := c.Wf
  inv _ := True
  guar _ c := c.RowRel .authMfaChallenges ChallengeOpened

section Opening

variable {p : Nat} {env : External} {config : AuthSessionConfig}

theorem openingContract_wf : openingContract.WellFormed := fun _ _ h => h

theorem ChallengeStored.opened {c : Conn Table} (h : c.RowRel .authMfaChallenges ChallengeStored) :
    c.RowRel .authMfaChallenges ChallengeOpened := by
  intro id hold row hrow
  rw [h id hold] at hrow
  cases hrow

theorem opening_guar {c : Conn Table} (h : c.RowRel .authMfaChallenges ChallengeOpened) :
    (openingContract.judge p).guar c := ⟨h, fun _ _ => trivial⟩

/-- Whatever inserts no challenge keeps `ChallengeStored`. -/
theorem carried_stored : Carried (openingContract.judge p) (noInserts .authMfaChallenges)
    fun c => c.RowRel .authMfaChallenges ChallengeStored := by
  refine Contract.carried_rowRel openingContract_wf (fun _ _ h => h) ?_ fun _ _ h =>
    opening_guar (ChallengeStored.opened h)
  intro id old v v' evs hchange _ hstored hold
  have hsome : v.isSome := hchange rfl
  rw [hstored hold] at hsome
  cases hsome

/-- Whatever leaves the challenges alone keeps `ChallengeOpened`. -/
theorem carried_opened : Carried (openingContract.judge p) (besides .authMfaChallenges)
    fun c => c.RowRel .authMfaChallenges ChallengeOpened := by
  refine Contract.carried_rowRel openingContract_wf ?_ ?_ fun _ _ h => opening_guar h
  · intro _ v hnone row hrow
    rw [hnone] at hrow
    cases hrow
  · intro _ _ _ _ _ hchange
    exact absurd rfl hchange

theorem ordinary_noInserts : Ordinary (noInserts .authMfaChallenges) := by
  refine Ordinary.of_free fun t ht => free_noInserts ?_
  rintro rfl
  revert ht
  decide

theorem auditLogs_besides : Free (besides (T := Table) .authMfaChallenges) .auditLogs :=
  free_besides (by decide)

/-- Programs that insert no challenge. -/
theorem stored {α : Type} {m : Db α} (hm : m.All (Act.Steps (noInserts .authMfaChallenges))) :
    Triple (openingContract.judge p) p (fun c => c.RowRel .authMfaChallenges ChallengeStored) m
      fun _ c => c.RowRel .authMfaChallenges ChallengeStored :=
  Triple.speaks carried_stored (hm.mono fun _ ha => .inl ha)

/-- What comes after the new challenge in its transaction. -/
theorem opened {α : Type} {m : Db α} (hm : m.All (Act.Within (besides .authMfaChallenges))) :
    Triple (openingContract.judge p) p (fun c => c.RowRel .authMfaChallenges ChallengeOpened) m
      fun _ c => c.RowRel .authMfaChallenges ChallengeOpened :=
  Triple.within (carried_opened (p := p)).stable (carried_opened (p := p)).frame hm

/-- The commit of a transaction that has inserted a challenge. -/
theorem commit_opened : Triple (openingContract.judge p) p
    (fun c => c.RowRel .authMfaChallenges ChallengeOpened) (commitTx : Db Unit)
    fun _ c => c.RowRel .authMfaChallenges ChallengeStored :=
  (Triple.commitTx Contract.private_judge carried_opened.stable carried_opened.guar).post fun _ _ htx =>
    (carried_stored (p := p)).clean _ (.inl htx)

/-- **A new challenge is open.** -/
theorem createChallenge_opens (new : Repositories.Mfa.NewChallenge) :
    Triple (openingContract.judge p) p (fun c => c.RowRel .authMfaChallenges ChallengeStored)
      (Repositories.Mfa.createChallenge new)
      fun _ c => c.RowRel .authMfaChallenges ChallengeOpened := by
  refine (stored (within_steps query_within)).bind fun s => ?_
  have hinsert : Triple (openingContract.judge p) p
      (fun c => c.RowRel .authMfaChallenges ChallengeStored)
      ((Repositories.Mfa.createChallengeStmt s new).exec (dbError .uniqueViolation))
      fun _ c => c.RowRel .authMfaChallenges ChallengeOpened := by
    refine Triple.insert carried_stored.stable (fun _ => carried_opened.stable) ?_
    intro tx srv _ hstored _ id hold row hrow
    have hget := Store.get_set (tx.view srv.store) .authMfaChallenges
      ((Repositories.Mfa.createChallengeStmt s new).key srv.seq) id
      (some ((Repositories.Mfa.createChallengeStmt s new).row srv.seq))
    rw [Conn.view_some, Tx.view_write, hget] at hrow
    split at hrow
    · cases hrow
      rfl
    · exact ChallengeStored.opened hstored id hold row hrow
  refine hinsert.bind fun id => ?_
  exact opened (.bind (references_within _ _ _) fun _ => .ret)

theorem beginLogin_opens (user : Repositories.Users.Found) (persistent : Bool)
    (login : LoginContext) :
    Triple (openingContract.judge p) p (fun c => c.RowRel .authMfaChallenges ChallengeStored)
      (Services.Mfa.beginLogin env user persistent login)
      fun _ c => c.RowRel .authMfaChallenges ChallengeStored := by
  have hφ := ordinary_noInserts
  have hc : Alters (noInserts (T := Table) .authMfaChallenges) .authMfaChallenges :=
    alters_noInserts _
  refine (stored (within_steps (Repositories.Mfa.summary_within _))).bind fun summary => ?_
  simp only
  split
  · exact stored .ret
  refine (stored (within_steps utcNow_within)).bind fun _ => ?_
  refine (stored begin_steps).bind fun _ => ?_
  refine (stored (within_steps (Repositories.Mfa.pruneChallenges_within hc.edits))).bind fun _ => ?_
  refine (stored (within_steps
    (Repositories.Mfa.consumeLoginChallengesForUser_within hc _))).bind fun _ => ?_
  split
  · -- enrollment
    refine (stored (within_steps fresh_within)).bind fun _ => ?_
    refine (stored (within_steps fresh_within)).bind fun _ => ?_
    refine (stored (Prog.All.all_okOr _ _)).bind fun _ => ?_
    refine (stored (within_steps fresh_within)).bind fun _ => ?_
    refine (stored (within_steps (Repositories.Mfa.ensureSettings_within hφ _ _))).bind fun _ => ?_
    refine (createChallenge_opens _).bind fun _ => ?_
    refine (opened (Repositories.AuditLogs.record_within auditLogs_besides _ _ _ _ _)).bind
      fun _ => ?_
    refine commit_opened.bind fun _ => ?_
    exact stored (.bind (Prog.All.all_okOr _ _) fun _ => .ret)
  · -- a second factor that is already there
    refine (createChallenge_opens _).bind fun _ => ?_
    refine (opened (Repositories.AuditLogs.record_within auditLogs_besides _ _ _ _ _)).bind
      fun _ => ?_
    exact commit_opened.bind fun _ => stored .ret

theorem login_opens (req : LoginRequest) (clientIp : String) :
    Triple (openingContract.judge p) p (fun c => c.RowRel .authMfaChallenges ChallengeStored)
      (Services.Auth.login env config req clientIp)
      fun _ c => c.RowRel .authMfaChallenges ChallengeStored := by
  have hφ := ordinary_noInserts
  have hs : Free (noInserts (T := Table) .authMfaChallenges) .authSessions :=
    free_noInserts (by decide)
  refine (stored (within_steps (Services.Auth.lockedUntil_within _))).bind fun locked => ?_
  cases locked with
  | some locked => exact stored (.bind (within_steps utcNow_within) fun _ => .fail)
  | none =>
    refine (stored (within_steps (Repositories.Users.findByUsername_within _))).bind fun row => ?_
    simp only
    split
    · refine (stored (Services.Auth.recordFailedLogin_steps hφ _ _)).bind fun locked => ?_
      cases locked with
      | some locked => exact stored (.bind (within_steps utcNow_within) fun _ => .fail)
      | none => exact stored .fail
    · refine (beginLogin_opens _ _ _).bind fun response => ?_
      cases response with
      | some response => exact stored .ret
      | none =>
        exact stored (.bind (Services.Auth.createLoginSession_steps hφ (admits_of_free hs _ _) _ _ _)
          fun _ => .ret)

theorem startPasskeyAuthentication_opens (challengeToken : String) :
    Triple (openingContract.judge p) p (fun c => c.RowRel .authMfaChallenges ChallengeStored)
      (Services.Mfa.startPasskeyAuthentication env challengeToken)
      fun _ c => c.RowRel .authMfaChallenges ChallengeStored := by
  have hc : Alters (noInserts (T := Table) .authMfaChallenges) .authMfaChallenges :=
    alters_noInserts _
  refine (stored begin_steps).bind fun _ => ?_
  refine (stored (within_steps (Services.Mfa.lockChallenge_within _ _))).bind fun _ => ?_
  refine (stored (Prog.All.all_okOrThrow _)).bind fun _ => ?_
  refine (stored (within_steps (Repositories.Mfa.listPasskeys_within _))).bind fun _ => ?_
  refine (stored (within_steps fresh_within)).bind fun _ => ?_
  refine (stored (Prog.All.all_okOr _ _)).bind fun _ => ?_
  refine (stored (within_steps (Repositories.Mfa.consumeChallenge_within hc _ _))).bind fun _ => ?_
  refine (stored (within_steps utcNow_within)).bind fun _ => ?_
  refine (createChallenge_opens _).bind fun _ => ?_
  exact commit_opened.bind fun _ => stored .ret

theorem startPasskeyRegistration_opens (user : UserResponse)
    (req : MfaPasskeyRegistrationStartRequest) :
    Triple (openingContract.judge p) p (fun c => c.RowRel .authMfaChallenges ChallengeStored)
      (Services.Mfa.startPasskeyRegistration env user req)
      fun _ c => c.RowRel .authMfaChallenges ChallengeStored := by
  have hφ := ordinary_noInserts
  dsimp only [Services.Mfa.startPasskeyRegistration]
  refine (stored (Prog.All.all_reject _ _)).bind fun _ => ?_
  refine (stored (Services.Mfa.verifyPasswordAndTotp_steps hφ _ _ _)).bind fun _ => ?_
  refine (stored (within_steps (Repositories.Mfa.listPasskeys_within _))).bind fun _ => ?_
  refine (stored begin_steps).bind fun _ => ?_
  refine (stored (within_steps fresh_within)).bind fun _ => ?_
  refine (stored (within_steps (Repositories.Mfa.ensureSettings_within hφ _ _))).bind fun _ => ?_
  refine (stored (within_steps fresh_within)).bind fun _ => ?_
  refine (stored (Prog.All.all_okOr _ _)).bind fun _ => ?_
  refine (stored (within_steps utcNow_within)).bind fun _ => ?_
  refine (createChallenge_opens _).bind fun _ => ?_
  refine (opened (Repositories.AuditLogs.record_within auditLogs_besides _ _ _ _ _)).bind
    fun _ => ?_
  exact commit_opened.bind fun _ => stored .ret

/-- **Every request inserts open challenges only.** -/
theorem requests_open (env : External) (config : AuthSessionConfig) {s₀ : Server Table}
    (h₀ : s₀.Wf) : openingContract.Kept (serve env config) s₀ fun _ _ _ _ => True where
  base _ h p := h.wf h₀ p
  init := trivial
  advance _ _ _ h := h
  prog p req := by
    have hφ := ordinary_noInserts
    have hs : Free (noInserts (T := Table) .authMfaChallenges) .authSessions :=
      free_noInserts (by decide)
    have hsubject : ∀ t ∈ subjectTables, Free (noInserts .authMfaChallenges) t := by
      intro t ht
      refine free_noInserts ?_
      rintro rfl
      revert ht
      decide
    -- most requests issue no challenge
    have hother : req.issuesChallenge = false → Triple (openingContract.judge p) p
        (fun c => c.RowRel .authMfaChallenges ChallengeStored) (serve env config req)
        fun _ c => c.RowRel .authMfaChallenges ChallengeStored := by
      intro hnone
      have hpermitted : req.Permitted (noInserts .authMfaChallenges) :=
        Request.permitted_of_free hsubject (alters_noInserts _) fun hnew => by
          rw [hnone] at hnew
          cases hnew
      exact serve_carried carried_stored hφ (admits_of_free hs) req hpermitted
    refine Triple.conseq (P := fun c => c.RowRel .authMfaChallenges ChallengeStored)
      (Q := fun _ c => c.RowRel .authMfaChallenges ChallengeStored) ?_
      (fun c hc => (carried_stored (p := p)).clean c (.inl hc)) fun _ _ _ => trivial
    by_cases hissues : req.issuesChallenge = true
    · cases req with
      | login req clientIp =>
        refine (login_opens req clientIp).bind fun outcome => ?_
        cases outcome <;> exact stored .ret
      | startPasskeyAuthentication challengeToken =>
        exact (startPasskeyAuthentication_opens challengeToken).bind fun _ => stored .ret
      | startPasskeyRegistration parts req =>
        refine (stored (authenticate_steps hφ _)).bind fun _ => ?_
        refine (stored (within_steps (Services.Auth.me_within _))).bind fun _ => ?_
        exact (startPasskeyRegistration_opens _ _).bind fun _ => stored .ret
      | _ => cases hissues
    · exact hother (by simpa using hissues)

end Opening

/-! ## The main theorem

The index gives the first part. For the second one: what is committed beside a new open challenge
is closed, and stays closed.
-/

/-- The challenge is no open login challenge of the user. -/
def ClosedFor (userId : Nat) (v : Option ChallengeRow) : Prop :=
  ∀ row, v = some row →
    ¬(row.userId = userId ∧ isLoginKind row.kind = true ∧ row.consumedAt = none)

/-- **A closed challenge is never opened again.** -/
theorem ClosedFor.kept {userId : Nat} {r : ChallengeRow} {new : Option ChallengeRow}
    {evs : List Event} (hok : challengeProtocol (some r) new evs)
    (hr : ClosedFor userId (some r)) : ClosedFor userId new := by
  rintro row rfl ⟨huser, hkind, hopen⟩
  obtain ⟨_, huser', hkind', hclosed⟩ := challengeProtocol_update hok
  have hnone : r.consumedAt = none := by
    cases hc : r.consumedAt with
    | none => rfl
    | some t =>
      have hsome := hclosed (by rw [hc]; rfl)
      rw [hopen] at hsome
      cases hsome
  exact hr r rfl ⟨huser' ▸ huser, hkind' ▸ hkind, hnone⟩

/-- **A user has at most one open challenge of the login kinds.** -/
theorem openLogin_unique {env : External} {config : AuthSessionConfig} {s₀ : Server Table}
    (h₀ : s₀.Wf) (hindex : s₀.store.Distinct .authMfaChallenges) {C : Db.Config}
    (hC : Reachable (serve env config) s₀ C) {userId id id' : Nat}
    (h : OpenLogin C.server.store userId id) (h' : OpenLogin C.server.store userId id') :
    id = id' := by
  obtain ⟨r, hr, hu, hk, ho⟩ := h
  obtain ⟨r', hr', hu', hk', ho'⟩ := h'
  by_contra hne
  -- the two would stand in the index together
  have hdistinct := (challengeIndex.reachable h₀ hindex hC).store id id' r r' hne hr hr'
  have hboth : Table.clash .authMfaChallenges r r' = true := by
    simp [Table.clash, hu, hu', hk, hk', ho, ho']
  have hneither : Table.clash .authMfaChallenges r r' = false := hdistinct
  rw [hboth] at hneither
  cases hneither

/-- **At most one live login challenge.** In every interleaving of all requests, a user has at most
one challenge among the login kinds that is neither consumed nor expired; and when a new one is
committed, it is open, and no other challenge of the user that is stored then is ever live again. -/
theorem liveLogin_unique (env : External) (config : AuthSessionConfig) {s₀ : Server Table}
    (h₀ : s₀.Wf) (hindex : s₀.store.Distinct .authMfaChallenges) {C : Db.Config}
    (hC : Reachable (serve env config) s₀ C) :
    (∀ userId id id', LiveLogin C.server userId id → LiveLogin C.server userId id' → id = id') ∧
      ∀ C', Step (serve env config) (fun _ _ => True) C C' → ∀ (n : Nat) (new : ChallengeRow),
        C.server.store.get .authMfaChallenges n = none →
        C'.server.store.get .authMfaChallenges n = some new → isLoginKind new.kind = true →
          new.consumedAt = none ∧
            ∀ (m : Nat) (old : ChallengeRow), m ≠ n →
              C'.server.store.get .authMfaChallenges m = some old →
              ∀ C'', Steps (serve env config) (fun _ _ => True) C' C'' →
                ¬LiveLogin C''.server new.userId m := by
  refine ⟨fun userId id id' h h' => openLogin_unique h₀ hindex hC h.openLogin h'.openLogin, ?_⟩
  intro C' hstep n new hnone hnew hkind
  have hC' : Reachable (serve env config) s₀ C' := hC.tail hstep
  have hopen : new.consumedAt = none := by
    rcases Contract.guar_of_step (requests_open env config h₀) hC hstep with
      ⟨hstore, _⟩ | ⟨p, tx, _, hserver, hcommits, _⟩
    · rw [hstore, hnone] at hnew
      cases hnew
    · rw [hserver] at hnew
      exact hcommits.2 n hnone new hnew
  refine ⟨hopen, fun m old hne hold C'' hs => ?_⟩
  have hother : ClosedFor new.userId (some old) := by
    rintro row hrow ⟨hu, hk, ho⟩
    cases hrow
    exact hne (openLogin_unique h₀ hindex hC' ⟨old, hold, hu, hk, ho⟩ ⟨new, hnew, rfl, hkind, hopen⟩)
  have hkept : ClosedFor new.userId (C''.server.store.get .authMfaChallenges m) :=
    Steps.row_kept (t := Table.authMfaChallenges) (F := ClosedFor new.userId) h₀ hC' rfl
      (fun _ _ _ hok hr => ClosedFor.kept hok hr) hold
      hother hs
  rintro ⟨row, hrow, hu, hk, ho, _⟩
  exact hkept row hrow ⟨hu, hk, ho⟩

/-- The sample installation after two overlapping logins of `root`. -/
def overlappingLogins : Db.Config :=
  (Stage.after (serve Sample.external Sample.config) Sample.server
    [.start (Sample.login "root"), .start (Sample.login "root"), .run 0 8, .run 1 8, .run 0 100,
      .run 1 100]).config

theorem liveLogin_unique_sample :
    LiveLogin overlappingLogins.server 10 22 ∧ ¬LiveLogin overlappingLogins.server 10 20 := by
  have hindex : Sample.server.store.Distinct .authMfaChallenges := by
    intro id id' r r' _ hr
    rw [Store.get_of_rows_nil (t := Table.authMfaChallenges) (by decide) id] at hr
    cases hr
  have hC : Reachable (serve Sample.external Sample.config) Sample.server overlappingLogins :=
    Stage.reachable_after _ _ _
  have hlive : ((overlappingLogins.server.store.get .authMfaChallenges (22 : Nat)).any
      fun row : ChallengeRow => row.userId == 10 && isLoginKind row.kind && row.consumedAt.isNone &&
        decide (overlappingLogins.server.clock < row.expiresAt)) = true := by
    decide +kernel
  have h22 : LiveLogin overlappingLogins.server 10 22 := by
    obtain ⟨row, hrow, hall⟩ := (Option.any_eq_true _ _).1 hlive
    simp only [Bool.and_eq_true, beq_iff_eq, Option.isNone_iff_eq_none, decide_eq_true_eq] at hall
    exact ⟨row, hrow, hall.1.1.1, hall.1.1.2, hall.1.2, hall.2⟩
  refine ⟨h22, fun h20 => ?_⟩
  have hsame := (liveLogin_unique Sample.external Sample.config Sample.server_wf hindex hC).1
    10 22 20 h22 h20
  exact absurd hsame (by decide)

end ArcAdmin
