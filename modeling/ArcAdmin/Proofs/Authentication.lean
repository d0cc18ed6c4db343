import ArcAdmin.Proofs.Logins
import ArcAdmin.ReadCommitted.Duties

/-!
# What a request with a cookie may change

A session is known by two random values, which are drawn when it is created: the cookie, and the
token against forged requests. Only their hashes are stored. So a request that changes anything but
the time at which a session was last seen carries the cookie of a session, and, unless its method is
safe, the other token of the same session twice.

* **`sessionContract`** — every session is stored under the hashes of its own two values;
* **`authenticate_establishes`** — what authentication establishes about a request;
* `serve_authenticates` — the requests that begin with it.
-/

namespace ArcAdmin

open ReadCommitted SessionAuth
open Prog.All

/-! ## The history of a session

A session has one event: its creation. Its user can be read off the journal even when the row is
gone.
-/

/-- What has happened to a session is that it was created, for its user. -/
def sessionLaw (_ : Nat) (row : Option SessionRow) (past : List Event) : Prop :=
  ∀ session, row = some session → past = [.sessionCreated session.userId session.completed]

theorem rowLaw_session : RowLaw (T := Table) .authSessions sessionLaw where
  step id old new evs notes hok hfresh hlaw := by
    have hprotocol : sessionProtocol old new notes := hok
    intro session hsession
    subst hsession
    cases old with
    | none =>
      have hpast : evs = [] := hfresh rfl rfl
      rw [hpast, hprotocol.2]
      rfl
    | some before =>
      obtain ⟨hnotes, hnew, _⟩ := hprotocol
      rw [hnotes, List.append_nil, hlaw before rfl, hnew]

/-- The session was created for that user. -/
def CreatedFor (log : List (Entry Table)) (sessionId userId : Nat) : Prop :=
  ∃ completed, Event.sessionCreated userId completed ∈ history log ⟨.authSessions, sessionId⟩

theorem lasts_createdFor (sessionId userId : Nat) :
    Lasts fun log => CreatedFor log sessionId userId := by
  intro log log' hsub hcreated
  obtain ⟨completed, hmem⟩ := hcreated
  obtain ⟨e, he, hkey, hev⟩ := mem_history.1 hmem
  exact ⟨completed, mem_history.2 ⟨e, hsub he, hkey, hev⟩⟩

/-! ## The values of a session

The random values of a session are functions of its number, which is drawn once. Every session in
the database is stored under the hashes of its own two.
-/

/-- The session is stored under the hashes of the two values that were drawn for it. -/
structure Keyed (env : External) (id : Nat) (row : SessionRow) : Prop where
  cookie : row.sessionTokenHash = env.tokenHash (env.randomToken id 0)
  csrf : row.csrfTokenHash = env.tokenHash (env.randomToken id 1)

/-- So is every stored session. -/
def AllKeyed (env : External) (s : Server Table) : Prop :=
  ∀ (id : Nat) (row : SessionRow), s.store.get .authSessions id = some row → Keyed env id row

/-- A change of a session leaves its values. -/
def KeyKept (env : External) (id : Nat) (old new : Option SessionRow) : Prop :=
  (∀ row, old = some row → Keyed env id row) → ∀ row, new = some row → Keyed env id row

theorem KeyKept.refl (env : External) (id : Nat) (v : Option SessionRow) : KeyKept env id v v :=
  fun h => h

/-- **Sessions keep the values that were drawn for them.** -/
def sessionContract (env : External) : Contract Table where
  base _ c := c.Wf ∧ c.Lawful .authSessions sessionLaw
  inv := AllKeyed env
  guar _ c := c.RowRel .authSessions (KeyKept env)

theorem sessionContract_wf {env : External} : (sessionContract env).WellFormed := fun _ _ h => h.1

/-- Changes of sessions other than inserts, and inserts under their own values. -/
def keyedChanges (env : External) : Change Table
  | .authSessions, (id : Nat), (old : Option SessionRow), new, _ =>
    old.isSome ∨ ∀ row, new = some row → Keyed env id row
  | _, _, _, _, _ => True

variable {env : External} {config : AuthSessionConfig} {p : Nat} {G : Conn Table → Prop}

theorem free_keyedChanges {t : Table} (ht : t ≠ .authSessions) : Free (keyedChanges env) t := by
  intro id old new evs
  cases t <;> trivial

theorem edits_keyedChanges : Edits (keyedChanges env) .authSessions := fun _ _ _ => .inl rfl

theorem ordinary_keyed : Ordinary (keyedChanges env) where
  auditLogs := free_keyedChanges (by decide)
  loginAttempts := free_keyedChanges (by decide)
  settings _ _ _ := trivial
  reauthentications _ _ _ _ := trivial
  passkeys _ _ _ := trivial
  stepUpTokens := free_keyedChanges (by decide)
  moduleUnlocks := free_keyedChanges (by decide)
  sessions := edits_keyedChanges
  users _ _ _ := trivial
  passwords _ _ _ := trivial
  userRoles := (free_keyedChanges (by decide)).edits
  rolePermissions := (free_keyedChanges (by decide)).edits

theorem permitted_keyed (req : Request) : req.Permitted (keyedChanges env) :=
  Request.permitted_of_free (fun t ht => free_keyedChanges fun heq => by
      rw [heq] at ht
      revert ht
      decide)
    (free_keyedChanges (by decide)).alters fun _ => free_keyedChanges (by decide)

/-- A change within these keeps the values of the row. -/
theorem keyKept_framed (id : Nat) (old v v' : Option SessionRow) (evs : List Event)
    (hchange : keyedChanges env .authSessions id v v' evs) (hok : sessionProtocol v v' evs)
    (h : KeyKept env id old v) : KeyKept env id old v' := by
  intro hold row hrow
  rcases hchange with hsome | hnew
  · obtain ⟨before, hbefore⟩ := Option.isSome_iff_exists.1 hsome
    have hkeyed : Keyed env id before := h hold before hbefore
    subst hbefore hrow
    -- the protocol of a session lets its values alone
    obtain ⟨_, hrow, _⟩ := hok
    rw [hrow]
    exact ⟨hkeyed.cookie, hkeyed.csrf⟩
  · exact hnew row hrow

theorem keyed_guar {c : Conn Table} (hb : ((sessionContract env).judge p).base c)
    (h : c.RowRel .authSessions (KeyKept env)) : ((sessionContract env).judge p).guar c := by
  refine ⟨h, fun tx htx id row hrow => ?_⟩
  obtain ⟨otx, s⟩ := c
  cases htx
  exact h id (hb.2 id) row hrow

/-- What every transaction keeps. -/
theorem carried_keyed : Carried ((sessionContract env).judge p) (keyedChanges env)
    fun c => c.RowRel .authSessions (KeyKept env) :=
  Contract.carried_rowRel sessionContract_wf (KeyKept.refl env)
    (fun id old v v' evs hchange hok h => keyKept_framed id old v v' evs hchange hok h)
    fun _ hb h => keyed_guar hb h

/-- A login opens its session under the values that are drawn for it. -/
theorem admits_keyed (userId : Nat) (completed : Option (Nat × Factor)) :
    Admits env (keyedChanges env) userId completed := by
  refine fun n new _ _ hcookie hcsrf => .inr fun row hrow => ?_
  cases hrow
  exact ⟨hcookie, hcsrf⟩

/-- **Every request keeps the values of the sessions.** -/
theorem serve_keyed (req : Request) : Triple ((sessionContract env).judge p) p
    (fun c => c.RowRel .authSessions (KeyKept env)) (serve env config req)
    fun _ c => c.RowRel .authSessions (KeyKept env) :=
  serve_carried carried_keyed ordinary_keyed admits_keyed req (permitted_keyed req)

/-! ## Authentication

The query of `auth_context` looks a session up by the hash of the cookie, so the cookie is the
value of that session, as far as the hash has no collisions.
-/

/-- Authentication changes the time at which a session was last seen, and nothing else. -/
def touches : Change Table := fun t _ old _ _ => t = .authSessions ∧ old.isSome

theorem edits_touches : Edits touches .authSessions := fun _ _ _ => ⟨rfl, rfl⟩

/-- Every table but that of the sessions. -/
abbrev besideSessions (t : Table) : Prop := t ≠ .authSessions

theorem frozen_touches (t : Table) (ht : besideSessions t) : Frozen touches t :=
  fun _ _ _ _ h => ht h.1

theorem touches_keyed {t : Table} {id : t.Id} {old new : Option t.Row} {evs : List Event}
    (h : touches t id old new evs) : keyedChanges env t id old new evs := by
  obtain ⟨ht, hsome⟩ := h
  subst ht
  exact .inl hsome

/-- What a transaction keeps that only touches a session. -/
theorem carried_touches : Carried ((sessionContract env).judge p) touches
    fun c => c.RowRel .authSessions (KeyKept env) ∧ c.LeavesAlone besideSessions := by
  refine Carried.leaving sessionContract_wf ?_ frozen_touches
  exact Contract.carried_rowRel sessionContract_wf (KeyKept.refl env)
    (fun id old v v' evs hchange hok h => keyKept_framed id old v v' evs (touches_keyed hchange) hok h)
    fun _ hb h => keyed_guar hb h

/-- **The request is authentic**: it carries the cookie of the session, and, unless its method is
safe, the other token of that session in a header and in a cookie. -/
structure Authentic (env : External) (parts : Parts) (sessionId : Nat) : Prop where
  cookie : ∃ value, token parts.sessionCookie = some value ∧
    env.tokenHash value = env.tokenHash (env.randomToken sessionId 0)
  csrf : parts.safe = false → ∃ value, token parts.csrfHeader = some value ∧
    token parts.csrfCookie = some value ∧
    env.tokenHash value = env.tokenHash (env.randomToken sessionId 1)

/-- **What authentication establishes**: the request is authentic for a session of the user. -/
def Credentials (env : External) (parts : Parts) (sessionId userId : Nat)
    (log : List (Entry Table)) : Prop :=
  Authentic env parts sessionId ∧ CreatedFor log sessionId userId

theorem lasts_credentials (parts : Parts) (sessionId userId : Nat) :
    Lasts (Credentials env parts sessionId userId) :=
  (Lasts.const _).and (lasts_createdFor sessionId userId)

/-- The context that the query finds is that of a stored session with the hash. -/
theorem authContextQuery_session {s : Snap} {hash : String}
    {context : Repositories.AuthSessions.SessionAuthContext}
    (h : Repositories.AuthSessions.authContextQuery s hash = some context) :
    ∃ row : SessionRow, s.store.get .authSessions context.sessionId = some row ∧
      row.sessionTokenHash = hash ∧ row.csrfTokenHash = context.csrfTokenHash ∧
      row.userId = context.userId := by
  unfold Repositories.AuthSessions.authContextQuery at h
  obtain ⟨e, he, hfound⟩ := List.exists_of_findSome?_eq_some h
  have hget : s.store.get .authSessions e.1 = some e.2 := Store.mem_rows.1 he
  by_cases hhash : (e.2.sessionTokenHash == hash) = true
  · rw [if_pos hhash] at hfound
    obtain ⟨u, _, hcontext⟩ := Option.bind_eq_some_iff.1 hfound
    by_cases haccepted : Repositories.AuthSessions.acceptedBy s e.2 u = true
    · rw [if_pos haccepted] at hcontext
      cases hcontext
      exact ⟨e.2, hget, by simpa using hhash, rfl, rfl⟩
    · rw [if_neg haccepted] at hcontext
      cases hcontext
  · rw [if_neg hhash] at hfound
    cases hfound

section Authenticate

variable {R : Conn Table → Prop}

/-- The context is that of a session with that cookie. -/
structure Recognizes (env : External) (value : String)
    (context : Repositories.AuthSessions.SessionAuthContext) (log : List (Entry Table)) : Prop where
  cookie : env.tokenHash value = env.tokenHash (env.randomToken context.sessionId 0)
  csrf : context.csrfTokenHash = env.tokenHash (env.randomToken context.sessionId 1)
  session : CreatedFor log context.sessionId context.userId

theorem lasts_recognizes (env : External) (value : String)
    (o : Option Repositories.AuthSessions.SessionAuthContext) :
    Lasts fun log => ∀ context, o = some context → Recognizes env value context log := by
  intro log log' hsub h context hcontext
  have hknown := h context hcontext
  exact ⟨hknown.cookie, hknown.csrf, lasts_createdFor _ _ log log' hsub hknown.session⟩

/-- What `auth_context` finds is a session with that cookie. -/
theorem authContext_finds (hR : Carried (((sessionContract env).judge p).owing G) touches R)
    (value : String) : Triple (((sessionContract env).judge p).owing G) p R
      (Repositories.AuthSessions.authContext (env.tokenHash value)) fun o c =>
        (∀ context, o = some context → Recognizes env value context c.server.log) ∧ R c := by
  refine Triple.bind (R := fun s c => (∀ context,
    Repositories.AuthSessions.authContextQuery s (env.tokenHash value) = some context →
      Recognizes env value context c.server.log) ∧ R c) ?_ fun s => ?_
  · refine Triple.poolQuery hR.stable (fun s => (lasts_recognizes env value _).stable.and hR.stable)
      fun c hb hc => ⟨fun context hquery => ?_, hc⟩
    obtain ⟨row, hrow, hhash, hcsrf, huser⟩ := authContextQuery_session hquery
    have hkeyed : Keyed env context.sessionId row := hb.2 context.sessionId row hrow
    have hlaw := hb.1.2.1 context.sessionId
    rw [Conn.history_none] at hlaw
    refine ⟨hhash.symm.trans hkeyed.cookie, hcsrf.symm.trans hkeyed.csrf, row.completed, ?_⟩
    rw [hlaw row hrow, huser]
    exact List.mem_singleton_self _
  · simp only
    cases hquery : Repositories.AuthSessions.authContextQuery s (env.tokenHash value) with
    | none =>
      exact Triple.ret ((lasts_recognizes env value _).stable.and hR.stable) fun c _ hc =>
        ⟨(fun _ h => by cases h), hc.2⟩
    | some context =>
      have htouch : ((Repositories.AuthSessions.touchStmt context.sessionId).exec : Db _).All
          (Act.Steps touches) := within_steps (edit_within _ (fun _ _ => rfl) edits_touches)
      have hsteps {α : Type} {m : Db α} (hm : m.All (Act.Steps touches)) :
          Triple (((sessionContract env).judge p).owing G) p R m fun _ => R :=
        Triple.speaks hR (hm.mono fun _ ha => .inl ha)
      have hreturn : Triple (((sessionContract env).judge p).owing G) p R (do
          beginTx
          let _ ← (Repositories.AuthSessions.touchStmt context.sessionId).exec
          commitTx
          return some context : Db (Option Repositories.AuthSessions.SessionAuthContext))
          fun o c => o = some context ∧ R c := by
        refine (hsteps begin_steps).bind fun _ => (hsteps htouch).bind fun _ =>
          (hsteps commit_steps).bind fun _ => ?_
        exact Triple.ret hR.stable fun c _ hc => ⟨rfl, hc⟩
      have hlasts := lasts_recognizes env value (some context)
      refine (hreturn.lasting hlasts fun _ _ h => h).post fun o c hc => ?_
      exact ⟨fun context' ho => hc.1 context' (hc.2.1.symm.trans ho), hc.2.2⟩

/-- **What authentication establishes**, whatever is owed meanwhile. -/
theorem authenticate_establishes
    (hR : Carried (((sessionContract env).judge p).owing G) touches R) (parts : Parts) :
    Triple (((sessionContract env).judge p).owing G) p R (authenticate env parts)
      fun actor c => Credentials env parts actor.sessionId actor.userId c.server.log ∧ R c := by
  refine (Triple.okOr hR.stable).bind fun value => Triple.assuming fun hvalue => ?_
  refine (authContext_finds hR value).bind fun o => ?_
  have hst : (((sessionContract env).judge p).owing G).Stable fun c =>
      (∀ context, o = some context → Recognizes env value context c.server.log) ∧ R c :=
    (lasts_recognizes env value o).stable.and hR.stable
  refine (Triple.okOr hst).bind fun context => Triple.assuming fun ho => ?_
  have hvalidate : Triple (((sessionContract env).judge p).owing G) p
      (fun c => (∀ context, o = some context → Recognizes env value context c.server.log) ∧ R c)
      (validateCsrf env parts context.csrfTokenHash) fun _ c => (parts.safe = false →
        ∃ value, token parts.csrfHeader = some value ∧ token parts.csrfCookie = some value ∧
          env.tokenHash value = context.csrfTokenHash) ∧
        (∀ context, o = some context → Recognizes env value context c.server.log) ∧ R c := by
    refine Triple.whenever hst (fun hunsafe => ?_) fun hsafe c _ hc => ⟨fun hs => ?_, hc⟩
    · refine (Triple.okOr hst).bind fun header => Triple.assuming fun hheader => ?_
      refine (Triple.okOr hst).bind fun cookie => Triple.assuming fun hcookie => ?_
      refine (Triple.reject hst).post fun _ c hc => ⟨fun _ => ?_, hc.2⟩
      obtain ⟨hsame, hhash⟩ := Bool.or_eq_false_iff.1 hc.1
      have heq : header = cookie := by simpa using hsame
      exact ⟨header, hheader, by rw [heq, hcookie], by simpa using hhash⟩
    · rw [hs] at hsafe
      cases hsafe
  refine hvalidate.bind fun _ => Triple.assuming fun hforged => ?_
  refine (Triple.okOr hst).bind fun scope => Triple.assuming fun _ => ?_
  refine Triple.ret hst fun c _ hc => ?_
  have hknown : Recognizes env value context c.server.log := hc.1 context ho
  refine ⟨⟨⟨⟨value, hvalue, hknown.cookie⟩, fun hunsafe => ?_⟩, hknown.session⟩, hc.2⟩
  obtain ⟨header, hheader, hcookie, hhash⟩ := hforged hunsafe
  exact ⟨header, hheader, hcookie, hhash.trans hknown.csrf⟩


end Authenticate

/-! ## Requests that begin with it

All requests that carry cookies authenticate before they do anything else.
-/

/-- The cookies and headers of a request that has them looked at. Logins and the second step of a
login come without a session, and the command line tool has no request at all. -/
def Request.parts : Request → Option Parts
  | .logout parts | .me parts | .changePassword parts _ | .stepUp parts _
  | .moduleUnlockStatus parts _ | .moduleUnlock parts _ | .mePermissions parts
  | .mfaStatus parts | .startPasskeyRegistration parts _ | .finishPasskeyRegistration parts _
  | .revokePasskey parts _ _ | .regenerateRecoveryCodes parts _ | .createUser parts _
  | .updateUser parts _ _ | .deleteUser parts _ | .batchDeleteUsers parts _
  | .assignRoles parts _ _ | .batchAssignRoles parts _ | .getRole parts _ | .createRole parts _
  | .updateRole parts _ _ | .deleteRole parts _ | .getRolePermissions parts _
  | .putRolePermissions parts _ _ | .createDepartment parts _ | .updateDepartment parts _ _
  | .deleteDepartment parts _ => some parts
  | .login .. | .verifyTotp .. | .verifyRecoveryCode .. | .startPasskeyAuthentication ..
  | .finishPasskeyAuthentication .. | .bootstrapSuperAdmin .. => none

/-- **Such a request authenticates first.** -/
theorem serve_authenticates (env : External) (config : AuthSessionConfig) {req : Request}
    {parts : Parts} (h : req.parts = some parts) :
    req.opensSession = false ∧
      ∃ rest, serve env config req = authenticate env parts >>= rest := by
  cases req <;> cases h <;> refine ⟨rfl, ?_⟩
  all_goals first
    | exact ⟨_, rfl⟩
    | exact ⟨_, Prog.bind_assoc _ _ _⟩

end ArcAdmin
