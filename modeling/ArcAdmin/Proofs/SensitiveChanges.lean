import ArcAdmin.Proofs.Authentication
import ArcAdmin.Proofs.StepUpTokens
import ArcAdmin.Sample

/-!
# What a request may change, and what it needs for it

Two guards stand before the services. Authentication comes first, so that a forged request changes
nothing. The handlers of the sensitive requests then use up a step-up token, so that nothing
sensitive about an account, a role or a department changes without one. Both hold of each single
commit, whatever runs at the same time.

* **`Sensitive`** — what is sensitive about a row;
* **`Calmly`** — a transaction that has changed nothing sensitive;
* **`changes_authentic`** — a commit that changes more than the time a session was last seen;
* **`sensitive_authorized`** — a commit that changes something sensitive.
-/

namespace ArcAdmin

open ReadCommitted SessionAuth
open Prog.All

/-! ## Sensitive changes

The columns and links that decide what somebody may do. New accounts and roles are nobody's, so
creating one is not among these changes.
-/

/-- The account stays, with the same password, status and department. -/
def SameAccount (old new : Option UserRow) : Prop :=
  ∀ u, old = some u → ∃ v, new = some v ∧ v.passwordHash = u.passwordHash ∧
    v.status = u.status ∧ v.departmentId = u.departmentId ∧ v.deletedAt = u.deletedAt

/-- The role stays, with the same scope, and active as it was. -/
def SameRole (old new : Option RoleRow) : Prop :=
  ∀ r, old = some r → ∃ r', new = some r' ∧ r'.dataScope = r.dataScope ∧ r'.isActive = r.isActive

theorem SameAccount.refl (v : Option UserRow) : SameAccount v v :=
  fun u hu => ⟨u, hu, rfl, rfl, rfl, rfl⟩

theorem SameRole.refl (v : Option RoleRow) : SameRole v v := fun r hr => ⟨r, hr, rfl, rfl⟩

/-- A new account is nobody's. -/
theorem sameAccount_none (v : Option UserRow) : SameAccount none v := fun _ h => by cases h

theorem sameRole_none (v : Option RoleRow) : SameRole none v := fun _ h => by cases h

theorem SameAccount.trans {u v w : Option UserRow} (h : SameAccount u v) (h' : SameAccount v w) :
    SameAccount u w := by
  intro a ha
  obtain ⟨b, hb, hpassword, hstatus, hdepartment, hdeleted⟩ := h a ha
  obtain ⟨d, hd, hpassword', hstatus', hdepartment', hdeleted'⟩ := h' b hb
  exact ⟨d, hd, hpassword'.trans hpassword, hstatus'.trans hstatus,
    hdepartment'.trans hdepartment, hdeleted'.trans hdeleted⟩

theorem SameRole.trans {u v w : Option RoleRow} (h : SameRole u v) (h' : SameRole v w) :
    SameRole u w := by
  intro a ha
  obtain ⟨b, hb, hscope, hactive⟩ := h a ha
  obtain ⟨d, hd, hscope', hactive'⟩ := h' b hb
  exact ⟨d, hd, hscope'.trans hscope, hactive'.trans hactive⟩

/-- **A sensitive change**: of the password, the status or the department of an existing account, of
its roles, of the scope or the activity of an existing role, of its permissions, and the removal of
either; and any change of the departments. -/
def Sensitive (s : Store Table) : (t : Table) → t.Id → Option t.Row → Option t.Row → Prop
  | .users, _, old, new => ¬SameAccount old new
  | .roles, _, old, new => ¬SameRole old new
  | .userRoles, (userId, _), old, new => (s.get .users userId).isSome ∧ new ≠ old
  | .rolePermissions, (roleId, _), old, new => (s.get .roles roleId).isSome ∧ new ≠ old
  | .departments, _, old, new => new ≠ old
  | _, _, _, _ => False

theorem not_sensitive_refl (s : Store Table) (t : Table) (id : t.Id) (v : Option t.Row) :
    ¬Sensitive s t id v v := by
  intro h
  cases t with
  | users => exact h (SameAccount.refl _)
  | roles => exact h (SameRole.refl _)
  | userRoles => exact h.2 rfl
  | rolePermissions => exact h.2 rfl
  | departments => exact h rfl
  | organizations | permissions | authSessions | authLoginAttempts | userMfaSettings
  | userMfaRecoveryCodes | userPasskeys | authMfaChallenges | authStepUpTokens | authModuleUnlocks
  | auditLogs => exact h

/-- The transaction has changed nothing sensitive. -/
def Calm (c : Conn Table) : Prop :=
  ∀ (t : Table) (id : t.Id),
    ¬Sensitive c.server.store t id (c.server.store.get t id) (c.view.get t id)

/-! ## Transactions that change nothing sensitive

Such a transaction may write other columns, other tables, and the accounts and roles that it is
creating.
-/

/-- **Nothing sensitive has changed**, except about the accounts `U` and the roles `M`. -/
structure Calmly (env : External) (U M : Nat → Prop) (c : Conn Table) : Prop where
  keys : c.RowRel .authSessions (KeyKept env)
  users : c.RowRel .users fun _ => SameAccount
  roles : c.RowRel .roles fun _ => SameRole
  userRoles : c.RowRel .userRoles fun id old new => U id.1 ∨ new = old
  rolePermissions : c.RowRel .rolePermissions fun id old new => M id.1 ∨ new = old
  departments : c.RowRel .departments fun _ old new => new = old

/-- The changes that are not sensitive, except about `U` and `M`. -/
def calmChanges (U M : Nat → Prop) : Change Table
  | .authSessions, _, old, _, _ => old.isSome
  | .users, _, old, new, _ => SameAccount old new
  | .roles, _, old, new, _ => SameRole old new
  | .userRoles, id, _, _, _ => U id.1
  | .rolePermissions, id, _, _, _ => M id.1
  | .departments, _, _, _, _ => False
  | _, _, _, _, _ => True

/-- Nobody. -/
def nobody : Nat → Prop := fun _ => False

variable {env : External} {config : AuthSessionConfig} {p : Nat} {U M : Nat → Prop}
  {G : Conn Table → Prop}

theorem Calmly.stable : ((sessionContract env).judge p).Stable (Calmly env U M) := by
  intro c c' hr hc
  have hrel {t : Table} {ρ : t.Id → Option t.Row → Option t.Row → Prop} (hrefl : ∀ id v, ρ id v v)
      (h : c.RowRel t ρ) : c'.RowRel t ρ :=
    Contract.stable_rowRel (p := p) sessionContract_wf hrefl c c' hr h
  exact ⟨hrel (KeyKept.refl env) hc.keys, hrel (fun _ => SameAccount.refl) hc.users,
    hrel (fun _ => SameRole.refl) hc.roles, hrel (fun _ _ => .inr rfl) hc.userRoles,
    hrel (fun _ _ => .inr rfl) hc.rolePermissions, hrel (fun _ _ => rfl) hc.departments⟩

/-- Whatever is owed besides. -/
theorem Calmly.stable_owing :
    (((sessionContract env).judge p).owing G).Stable (Calmly env U M) := Calmly.stable

/-- **Changes that are not sensitive** keep that. -/
theorem Calmly.frameClosed : FrameClosed (calmChanges U M) (Calmly env U M) := by
  intro c c' hf hc
  refine ⟨RowRel.framed ?_ hc.keys hf, RowRel.framed ?_ hc.users hf, RowRel.framed ?_ hc.roles hf,
    RowRel.framed ?_ hc.userRoles hf, RowRel.framed ?_ hc.rolePermissions hf,
    RowRel.framed ?_ hc.departments hf⟩
  · exact fun id old v v' evs hchange hok h => keyKept_framed id old v v' evs (.inl hchange) hok h
  · exact fun _ _ _ _ _ hchange _ h => SameAccount.trans h hchange
  · exact fun _ _ _ _ _ hchange _ h => SameRole.trans h hchange
  · exact fun _ _ _ _ _ hchange _ _ => .inl hchange
  · exact fun _ _ _ _ _ hchange _ _ => .inl hchange
  · exact fun _ _ _ _ _ hchange _ _ => hchange.elim

theorem Calmly.mono {U' M' : Nat → Prop} {c : Conn Table} (h : Calmly env U M c)
    (hU : ∀ id, U id → U' id) (hM : ∀ id, M id → M' id) : Calmly env U' M' c where
  keys := h.keys
  users := h.users
  roles := h.roles
  userRoles id := (h.userRoles id).imp_left (hU _)
  rolePermissions id := (h.rolePermissions id).imp_left (hM _)
  departments := h.departments

theorem Calmly.of_clean {c : Conn Table} (h : c.Clean) : Calmly env U M c := by
  have hrel {t : Table} {ρ : t.Id → Option t.Row → Option t.Row → Prop} (hrefl : ∀ id v, ρ id v v) :
      c.RowRel t ρ := RowRel.of_view_eq hrefl fun id => by rw [h.view_eq]
  exact ⟨hrel (KeyKept.refl env), hrel fun _ => SameAccount.refl, hrel fun _ => SameRole.refl,
    hrel fun _ _ => .inr rfl, hrel fun _ _ => .inr rfl, hrel fun _ _ => rfl⟩

theorem Calmly.noted {c : Conn Table} (h : Calmly env U M c) (e : Event) :
    Calmly env U M (c.noted e) :=
  ⟨RowRel.noted h.keys e, RowRel.noted h.users e, RowRel.noted h.roles e,
    RowRel.noted h.userRoles e, RowRel.noted h.rolePermissions e, RowRel.noted h.departments e⟩

/-- An account or a role that is being created. -/
def Fresh (t : Table) (id : t.Id) (c : Conn Table) : Prop :=
  c.Owns ⟨t, id⟩ ∧ c.server.store.get t id = none

theorem Fresh.stable (t : Table) (id : t.Id) :
    ((sessionContract env).judge p).Stable (Fresh t id) := by
  intro c c' hr hc
  refine ⟨hr.2.2.2.2.owns hc.1, ?_⟩
  rw [(hr.2.2.2.2.get_of_owns sessionContract_wf.commits hc.1).1]
  exact hc.2

theorem Fresh.frameClosed {φ : Change Table} (t : Table) (id : t.Id) :
    FrameClosed φ (Fresh t id) := by
  intro c c' hf hc
  refine ⟨hf.owns hc.1, ?_⟩
  rw [hf.store]
  exact hc.2

/-- **Such a transaction is calm**, if the accounts `U` and the roles `M` are new. -/
theorem Calmly.calm {c : Conn Table} (h : Calmly env U M c)
    (hU : ∀ id, U id → c.server.store.get .users id = none)
    (hM : ∀ id, M id → c.server.store.get .roles id = none) : Calm c := by
  intro t id hsensitive
  cases t with
  | users => exact hsensitive (h.users id)
  | roles => exact hsensitive (h.roles id)
  | userRoles =>
    obtain ⟨hsome, hchanged⟩ := hsensitive
    rcases h.userRoles id with hnew | hsame
    · rw [hU _ hnew] at hsome
      cases hsome
    · exact hchanged hsame
  | rolePermissions =>
    obtain ⟨hsome, hchanged⟩ := hsensitive
    rcases h.rolePermissions id with hnew | hsame
    · rw [hM _ hnew] at hsome
      cases hsome
    · exact hchanged hsame
  | departments => exact hsensitive (h.departments id)
  | organizations | permissions | authSessions | authLoginAttempts | userMfaSettings
  | userMfaRecoveryCodes | userPasskeys | authMfaChallenges | authStepUpTokens | authModuleUnlocks
  | auditLogs => exact hsensitive

theorem Calmly.calm_nobody {c : Conn Table} (h : Calmly env nobody nobody c) : Calm c :=
  h.calm (fun _ hid => hid.elim) fun _ hid => hid.elim

/-- A transaction that changes sessions only is calm. -/
theorem calmly_of_alone {c : Conn Table} (hkeys : c.RowRel .authSessions (KeyKept env))
    (h : c.LeavesAlone besideSessions) : Calmly env U M c where
  keys := hkeys
  users id := by
    rw [h .users (by decide) id]
    exact SameAccount.refl _
  roles id := by
    rw [h .roles (by decide) id]
    exact SameRole.refl _
  userRoles id := .inr (h .userRoles (by decide) id)
  rolePermissions id := .inr (h .rolePermissions (by decide) id)
  departments := h .departments (by decide)

theorem calmly_guar {c : Conn Table} (hb : ((sessionContract env).judge p).base c)
    (h : Calmly env U M c) : ((sessionContract env).judge p).guar c := keyed_guar hb h.keys

/-- The transaction has used up a token of that session, user and scope. -/
def NotesUse (sessionId userId : Nat) (scope : String) (c : Conn Table) : Prop :=
  ∃ (id : Nat) (at' : Nat),
    c.Notes ⟨.authStepUpTokens, id⟩ (.stepUpConsumed sessionId userId scope at')

theorem notesUse_stable {J : Judge Table} (hJ : J.Private) {sessionId userId : Nat}
    {scope : String} : J.Stable (NotesUse sessionId userId scope) :=
  Judge.Stable.exists fun _ => Judge.Stable.exists fun _ => Conn.Notes.stable hJ _ _

theorem NotesUse.framed {φ : Change Table} {c c' : Conn Table} {sessionId userId : Nat}
    {scope : String} (h : NotesUse sessionId userId scope c) (hf : Framed φ c c') :
    NotesUse sessionId userId scope c' := by
  obtain ⟨id, at', hnotes⟩ := h
  exact ⟨id, at', hnotes.framed hf⟩

section Calmly

variable (env) (hG : ∀ c, Calm c → G c)
include hG

/-- **Calm transactions are carried along.** -/
theorem carried_calm : Carried (((sessionContract env).judge p).owing G)
    (calmChanges nobody nobody) (Calmly env nobody nobody) where
  stable := Calmly.stable
  frame := Calmly.frameClosed
  clean _ hc := Calmly.of_clean hc
  note _ e _ hc := hc.noted e
  guar c hb hc := ⟨calmly_guar hb hc, hG c hc.calm_nobody⟩

/-- Steps that change nothing sensitive. -/
theorem calmSteps {α : Type} {m : Db α} (hm : m.All (Act.Steps (calmChanges nobody nobody))) :
    Triple (((sessionContract env).judge p).owing G) p (Calmly env nobody nobody) m
      fun _ => Calmly env nobody nobody :=
  Triple.speaks (carried_calm env hG) (hm.mono fun _ ha => .inl ha)

/-! ## Using up a token

The statement of `consume` notes the session, the user and the scope of the token. Its transaction
commits before the service begins, so the token is used up whatever comes after it.
-/

omit hG in
/-- What is known of a transaction that may have used up a token stays true. -/
theorem maybeUsed_stable {sessionId userId : Nat} {scope : String} (used : Prop) :
    (((sessionContract env).judge p).owing G).Stable fun c =>
      Calmly env nobody nobody c ∧ (used → NotesUse sessionId userId scope c) :=
  Calmly.stable.and fun c c' hr hc hused =>
    notesUse_stable Contract.private_judge c c' hr (hc hused)

omit hG in
/-- **The statement that uses a token up** notes whose it was. -/
theorem consume_notes (tokenHash : String) (sessionId userId : Nat) (scope : String) :
    Triple (((sessionContract env).judge p).owing G) p (Calmly env nobody nobody)
      (Repositories.StepUp.consume tokenHash sessionId userId scope) fun used c =>
        Calmly env nobody nobody c ∧ (used = true → NotesUse sessionId userId scope c) := by
  have hexec : Triple (((sessionContract env).judge p).owing G) p (Calmly env nobody nobody)
      ((Repositories.StepUp.consumeStmt tokenHash sessionId userId scope).exec : Db _)
      fun rows c => Calmly env nobody nobody c ∧ ((rows.length == 1) = true →
        NotesUse sessionId userId scope c) := by
    have hprivate : (((sessionContract env).judge p).owing G).Private := Contract.private_judge
    refine (Triple.updateNoting hprivate Calmly.stable_owing Calmly.frameClosed
      (u := Repositories.StepUp.consumeStmt tokenHash sessionId userId scope)
      fun _ _ _ _ => trivial).post fun rows c hc => ⟨hc.1, fun hone => ?_⟩
    have hsome : rows ≠ [] := by
      rintro rfl
      cases hone
    obtain ⟨s, id, r, hcond, hnotes⟩ := hc.2 hsome
    refine ⟨id, s.now, ?_⟩
    have hmatch : r.sessionId = sessionId ∧ r.userId = userId ∧ r.scope = scope := by
      simp only [Repositories.StepUp.consumeStmt, Bool.and_eq_true, beq_iff_eq] at hcond
      exact ⟨hcond.1.1.1.1.2, hcond.1.1.1.2, hcond.1.1.2⟩
    obtain ⟨rfl, rfl, rfl⟩ := hmatch
    exact hnotes _ (List.mem_singleton_self _)
  exact hexec.bind fun rows => Triple.ret (maybeUsed_stable env _) fun c _ hc => hc

/-- **Whoever gets past `consume` has used up a token**, and the journal says so. -/
theorem consume_uses (sessionId userId : Nat) (header : Option String) (scope : String) :
    Triple (((sessionContract env).judge p).owing G) p (Calmly env nobody nobody)
      (Services.StepUp.consume env sessionId userId header scope)
      fun _ c => UsedToken c.server.log p sessionId userId scope ∧ c.tx = none := by
  refine (Triple.okOr Calmly.stable_owing).bind fun token => Triple.assuming fun _ => ?_
  refine (calmSteps env hG begin_steps).bind fun _ => ?_
  refine (consume_notes env (env.tokenHash token) sessionId userId scope).bind fun used => ?_
  refine (Triple.reject (maybeUsed_stable env _)).bind fun _ => Triple.assuming fun hused => ?_
  have husedTrue : used = true := by simpa using hused
  have hnotes : (((sessionContract env).judge p).owing G).Stable fun c =>
      Calmly env nobody nobody c ∧ NotesUse sessionId userId scope c :=
    Calmly.stable.and (notesUse_stable Contract.private_judge)
  have hrecord := Triple.within hnotes (p := p) (φ := calmChanges nobody nobody)
    (fun c c' hf hc => ⟨Calmly.frameClosed c c' hf hc.1, hc.2.framed hf⟩)
    (Repositories.AuditLogs.record_within (fun _ _ _ _ => trivial) (some userId)
      "auth.step_up.consumed" "user" (some userId) [("scope", .text scope)])
  refine (hrecord.pre fun c hc => ⟨hc.1, hc.2 husedTrue⟩).bind fun _ => ?_
  -- the entry that has been noted is committed
  have hguar : ∀ c, ((sessionContract env).judge p).base c → Calmly env nobody nobody c →
      (((sessionContract env).judge p).owing G).guar c :=
    fun c hb hc => ⟨calmly_guar hb hc, hG c hc.calm_nobody⟩
  refine (Triple.ofExists fun id => Triple.ofExists fun at' => ((Triple.commitNoted
    (e := Event.stepUpConsumed sessionId userId scope at') (k := ⟨Table.authStepUpTokens, id⟩)
    Calmly.stable hguar).post fun _ c hc => ⟨⟨id, at', hc.1⟩, hc.2⟩)).pre fun c hc => ?_
  obtain ⟨id, at', hnoted⟩ := hc.2
  exact ⟨id, at', hc.1, hnoted⟩

/-! ## New accounts and roles

The two services that create something, and the two updates with nothing sensitive in them.
-/

omit hG in
/-- Inside a transaction, what is known of it survives the changes that it allows. -/
theorem calmWithin {α : Type} {m : Db α} {P : Conn Table → Prop}
    (hP : ((sessionContract env).judge p).Stable P) (hf : FrameClosed (calmChanges U M) P)
    (hm : m.All (Act.Within (calmChanges U M))) :
    Triple (((sessionContract env).judge p).owing G) p (fun c => P c ∧ Calmly env U M c) m
      fun _ c => P c ∧ Calmly env U M c :=
  Triple.within (hP.and Calmly.stable)
    (fun c c' h hc => ⟨hf c c' h hc.1, Calmly.frameClosed c c' h hc.2⟩) hm

omit hG in
/-- **The row that an insert leaves is new**, and nothing sensitive has changed. -/
theorem insert_fresh {t : Table} {i : Insert Table t} (dup : ApiError)
    (hdrawn : ∀ n, Schema.serialNo t (i.key n) = some n)
    (hchange : ∀ n, calmChanges U M t (i.key n) none (some (i.row n)) (i.evs n)) :
    Triple (((sessionContract env).judge p).owing G) p (Calmly env U M) (i.exec dup)
      fun id c => Fresh t id c ∧ Calmly env U M c := by
  refine Triple.insert Calmly.stable (fun id => (Fresh.stable t id).and Calmly.stable)
    fun tx s hb hc hblocks => ?_
  have hnone : (tx.view s.store).get t (i.key s.seq) = none := Store.get_of_blocks hblocks
  refine ⟨⟨⟨_, rfl, tx.owns_write t (i.key s.seq) _ _ rfl⟩, ?_⟩, ?_⟩
  · -- its number has just been drawn
    show s.store.get t (i.key s.seq) = none
    by_contra hsome
    obtain ⟨r, hr⟩ := Option.ne_none_iff_exists'.1 hsome
    have hlt : s.seq < s.seq := hb.1.1.1.store_drawn t _ r hr s.seq (hdrawn s.seq)
    omega
  · refine Calmly.frameClosed _ _ (Framed.write tx s .update ?_ ?_ 1) hc
    · rw [hnone]
      exact hchange s.seq
    · rw [hnone]
      exact i.ok s.seq

/-- The guarantee of a calm transaction about new accounts and roles. -/
theorem commit_calm {U M : Nat → Prop} {P : Conn Table → Prop}
    (hP : ((sessionContract env).judge p).Stable P)
    (hU : ∀ c, P c → ∀ id, U id → c.server.store.get .users id = none)
    (hM : ∀ c, P c → ∀ id, M id → c.server.store.get .roles id = none) :
    Triple (((sessionContract env).judge p).owing G) p (fun c => P c ∧ Calmly env U M c)
      (commitTx : Db Unit) fun _ => Calmly env nobody nobody := by
  have hcommit : Triple (((sessionContract env).judge p).owing G) p
      (fun c => P c ∧ Calmly env U M c) (commitTx : Db Unit) fun _ c => c.tx = none := by
    refine Triple.commitTx Contract.private_judge (hP.and Calmly.stable) fun c hb hc => ?_
    exact ⟨calmly_guar hb hc.2, hG c (hc.2.calm (hU c hc.1) (hM c hc.1))⟩
  exact hcommit.post fun _ c hc => Calmly.of_clean (.inl hc)

omit hG in
/-- An account that is being created is new. -/
theorem createUser_fresh (user : Repositories.Users.NewUser) :
    Triple (((sessionContract env).judge p).owing G) p (Calmly env nobody nobody)
      (Repositories.Users.create user)
      fun found c => Fresh .users found.id c ∧ Calmly env nobody nobody c := by
  refine (Triple.within Calmly.stable_owing Calmly.frameClosed query_within).bind fun s => ?_
  have hinsert := insert_fresh env (p := p) (G := G) (U := nobody) (M := nobody)
    (i := Repositories.Users.createStmt s user) (dbError .uniqueViolation)
    (fun _ => rfl) fun _ => sameAccount_none _
  refine hinsert.bind fun id => ?_
  have hwithin {α : Type} {m : Db α} (hm : m.All (Act.Within (calmChanges nobody nobody))) :=
    calmWithin env (p := p) (G := G) (Fresh.stable .users id) (Fresh.frameClosed .users id) hm
  refine (hwithin (references_within _ _ _)).bind fun _ => ?_
  refine (hwithin (Repositories.Users.referencesDepartment_within _ _)).bind fun _ => ?_
  exact Triple.ret ((Fresh.stable .users id).and Calmly.stable) fun _ _ hc => hc

omit hG in
/-- A role that is being created is new. -/
theorem createRole_fresh (role : Repositories.Roles.NewRole) :
    Triple (((sessionContract env).judge p).owing G) p (Calmly env nobody nobody)
      (Repositories.Roles.create role)
      fun id c => Fresh .roles id c ∧ Calmly env nobody nobody c := by
  refine (Triple.within Calmly.stable_owing Calmly.frameClosed query_within).bind fun s => ?_
  exact insert_fresh env (p := p) (G := G) (U := nobody) (M := nobody)
    (i := Repositories.Roles.createStmt s role) (dbError .uniqueViolation)
    (fun _ => rfl) fun _ => sameRole_none _

/-- **A new account with its roles** changes nothing sensitive. -/
theorem createUser_calm (actor : ActorContext) (req : CreateUserRequest)
    (canGrantSuperAdmin canAssignDepartment : Bool) :
    Triple (((sessionContract env).judge p).owing G) p (Calmly env nobody nobody)
      (Services.Users.create env actor req canGrantSuperAdmin canAssignDepartment)
      fun _ => Calmly env nobody nobody := by
  have hcalm {α : Type} {m : Db α} (hm : m.All (Act.Within (calmChanges nobody nobody))) :=
    calmSteps env (p := p) hG (within_steps hm)
  refine (hcalm (all_reject _ _)).bind fun _ => ?_
  refine (hcalm (all_reject _ _)).bind fun _ => ?_
  refine (hcalm (all_reject _ _)).bind fun _ => ?_
  refine (hcalm (all_reject _ _)).bind fun _ => ?_
  refine (hcalm (all_reject _ _)).bind fun _ => ?_
  refine (hcalm (all_reject _ _)).bind fun _ => ?_
  refine (hcalm (Services.Auth.hashPassword_within _ _)).bind fun _ => ?_
  refine (hcalm (.ifSome fun _ => Services.Users.validateRoleGrantScope_within _ _ _)).bind
    fun _ => ?_
  refine (hcalm (.ifSome fun _ => .bind (all_reject _ _) fun _ =>
    Services.Departments.validateAssignment_within _ _)).bind fun _ => ?_
  refine (calmSteps env hG begin_steps).bind fun _ => ?_
  refine (createUser_fresh env _).bind fun found => ?_
  -- from here on the roles of the new account may change
  have hwithin {α : Type} {m : Db α} (hm : m.All (Act.Within (calmChanges (· = found.id) nobody))) :=
    calmWithin env (p := p) (G := G) (Fresh.stable .users found.id)
      (Fresh.frameClosed .users found.id) hm
  refine ((hwithin (.ifSome fun _ =>
    .bind (Repositories.Users.assignRoles_within_user (fun _ _ _ _ h => h) _) fun _ => .ret)).pre fun c hc =>
    ⟨hc.1, hc.2.mono (fun _ h => h.elim) fun _ h => h⟩).bind fun _ => ?_
  refine (hwithin (Repositories.AuditLogs.record_within (fun _ _ _ _ => trivial) _ _ _ _ _)).bind
    fun _ => ?_
  refine (commit_calm env hG (Fresh.stable .users found.id) ?_ fun _ _ _ h => h.elim).bind fun _ => ?_
  · intro c hc id hid
    rw [hid]
    exact hc.2
  exact hcalm (.bind (Repositories.Users.roleNamesByUser_within _) fun _ => .ret)

/-- **A new role with its permissions** changes nothing sensitive. -/
theorem createRole_calm (actorUserId : Option Nat) (actorDataScope : DataScope)
    (req : CreateRoleRequest) (canAssignPermissions : Bool) :
    Triple (((sessionContract env).judge p).owing G) p (Calmly env nobody nobody)
      (Services.Roles.create actorUserId actorDataScope req canAssignPermissions)
      fun _ => Calmly env nobody nobody := by
  have hcalm {α : Type} {m : Db α} (hm : m.All (Act.Within (calmChanges nobody nobody))) :=
    calmSteps env (p := p) hG (within_steps hm)
  refine (hcalm (all_reject _ _)).bind fun _ => ?_
  refine (hcalm (all_reject _ _)).bind fun _ => ?_
  refine (hcalm (all_reject _ _)).bind fun _ => ?_
  refine (hcalm (Services.Roles.validateDataScope_within _)).bind fun dataScope => ?_
  refine (hcalm (all_reject _ _)).bind fun _ => ?_
  refine (calmSteps env hG begin_steps).bind fun _ => ?_
  refine (createRole_fresh env _).bind fun roleId => ?_
  -- from here on the permissions of the new role may change
  have hwithin {α : Type} {m : Db α} (hm : m.All (Act.Within (calmChanges nobody (· = roleId)))) :=
    calmWithin env (p := p) (G := G) (Fresh.stable .roles roleId) (Fresh.frameClosed .roles roleId)
      hm
  refine ((hwithin (.ifSome fun _ => .bind (all_reject _ _) fun _ =>
    .bind (Services.Roles.validatePermissionDependencies_within _) fun _ =>
      .bind (Services.Roles.validatePermissionGrantScope_within _ _) fun _ =>
        .bind (Repositories.Roles.assignPermissions_within_role (fun _ _ _ _ h => h) _)
          fun _ => .ret)).pre fun c hc =>
    ⟨hc.1, hc.2.mono (fun _ h => h) fun _ h => h.elim⟩).bind fun _ => ?_
  refine (hwithin (Repositories.AuditLogs.record_within (fun _ _ _ _ => trivial) _ _ _ _ _)).bind
    fun _ => ?_
  refine (commit_calm env hG (Fresh.stable .roles roleId) (fun _ _ _ h => h.elim) ?_).bind
    fun _ => ?_
  · intro c hc id hid
    rw [hid]
    exact hc.2
  exact hcalm (Services.Roles.get_within _)

omit hG in
/-- Where neither password nor status nor department is given, only the display name and the address
are written. -/
theorem applyUpdate_profile (id : Nat) (req : UpdateUserRequest) (displayName : Option String)
    (emailIsSet : Bool) (email : Option String) (hstatus : req.status = none)
    (hdepartment : req.departmentId = none) :
    (Services.Users.applyUpdate id req none displayName emailIsSet email).All
      (Act.Within (calmChanges nobody nobody)) := by
  unfold Services.Users.applyUpdate
  rw [hstatus, hdepartment]
  refine .bind .ret fun _ => .bind .ret fun _ => ?_
  refine .bind (Prog.All.update (fun s i r _ => ?_) trivial) fun rows => ?_
  · intro u hu
    cases hu
    exact ⟨_, rfl, rfl, rfl, rfl, rfl⟩
  · cases rows.head? with
    | none => exact .ret
    | some row =>
      exact .bind (.whenever (Repositories.Users.referencesDepartment_within _ _)) fun _ => .ret

/-- **An update without a new password, status or department** changes nothing sensitive. -/
theorem updateUser_calm (id : Nat) (actor : Option ActorContext) (req : UpdateUserRequest)
    (canGrantSuperAdmin canAssignDepartment : Bool) (hpassword : req.password = none)
    (hstatus : req.status = none) (hdepartment : req.departmentId = none) :
    Triple (((sessionContract env).judge p).owing G) p (Calmly env nobody nobody)
      (Services.Users.update env id actor req canGrantSuperAdmin canAssignDepartment)
      fun _ => Calmly env nobody nobody := by
  have hcalm {α : Type} {m : Db α} (hm : m.All (Act.Within (calmChanges nobody nobody))) :=
    calmSteps env (p := p) hG (within_steps hm)
  refine (hcalm (Services.Users.ensureActorCanAccess_within _ _)).bind fun _ => ?_
  refine (hcalm (Services.Users.updateChecks_within _ _ _ _)).bind fun _ => ?_
  refine (hcalm (all_reject _ _)).bind fun _ => ?_
  refine (hcalm (.ifSome fun _ => Services.Users.validateStatus_within _ _ _ _)).bind fun _ => ?_
  rw [hpassword, hstatus]
  refine Triple.bind (R := fun hash c => hash = none ∧ Calmly env nobody nobody c)
    (Triple.ret Calmly.stable fun _ _ hc => ⟨rfl, hc⟩) fun hash => Triple.assuming fun hhash => ?_
  subst hhash
  refine (calmSteps env hG begin_steps).bind fun _ => ?_
  refine (hcalm (applyUpdate_profile id req _ _ _ hstatus hdepartment)).bind fun row => ?_
  refine (hcalm (all_okOr _ _)).bind fun row => ?_
  refine (hcalm .ret).bind fun _ => ?_
  refine (hcalm (Repositories.AuditLogs.record_within (fun _ _ _ _ => trivial) _ _ _ _ _)).bind
    fun _ => ?_
  refine (calmSteps env hG commit_steps).bind fun _ => ?_
  exact hcalm (.bind (Repositories.Users.roleNamesByUser_within _) fun _ => .ret)

/-- **An update of a role that leaves its scope and its activity** changes nothing sensitive. -/
theorem updateRole_calm (actorUserId : Option Nat) (actorDataScope : DataScope) (id : Nat)
    (req : UpdateRoleRequest) (hscope : req.dataScope = none) (hactive : req.isActive = none) :
    Triple (((sessionContract env).judge p).owing G) p (Calmly env nobody nobody)
      (Services.Roles.update actorUserId actorDataScope id req)
      fun _ => Calmly env nobody nobody := by
  have hcalm {α : Type} {m : Db α} (hm : m.All (Act.Within (calmChanges nobody nobody))) :=
    calmSteps env (p := p) hG (within_steps hm)
  refine (hcalm (all_reject _ _)).bind fun _ => ?_
  refine (hcalm (all_reject _ _)).bind fun _ => ?_
  refine (hcalm (.whenever (Services.Roles.validateDeactivation_within _))).bind fun _ => ?_
  refine (hcalm (.ifSome fun _ => Services.Roles.validateScopeUpdate_within _ _ _)).bind
    fun _ => ?_
  refine (hcalm (.whenever (Services.Roles.validateActivation_within _ _))).bind fun _ => ?_
  refine (hcalm (.ifSome fun _ => all_reject _ _)).bind fun _ => ?_
  refine (calmSteps env hG begin_steps).bind fun _ => ?_
  rw [hscope, hactive]
  refine (hcalm (.bind (Prog.All.update (fun s i r _ => ?_) trivial) fun _ => .ret)).bind
    fun _ => ?_
  · intro r' hr'
    cases hr'
    exact ⟨_, rfl, rfl, rfl⟩
  refine (hcalm (all_reject _ _)).bind fun _ => ?_
  refine (hcalm (Repositories.AuditLogs.record_within (fun _ _ _ _ => trivial) _ _ _ _ _)).bind
    fun _ => ?_
  exact (calmSteps env hG commit_steps).bind fun _ => hcalm (Services.Roles.get_within _)

/-- **The guard of a handler**: it uses up a token, or only looks at the unlocked module. -/
theorem stepUpOrUnlock_guards (actor : ActorContext) (parts : Parts) (sensitive : Bool)
    (scope module' : String) : Triple (((sessionContract env).judge p).owing G) p
      (Calmly env nobody nobody)
      (Handlers.stepUpOrUnlock env actor parts sensitive scope module') fun _ c =>
        (sensitive = true → UsedToken c.server.log p actor.sessionId actor.userId scope) ∧
          Calmly env nobody nobody c := by
  cases sensitive with
  | true =>
    refine (consume_uses env hG actor.sessionId actor.userId parts.stepUpHeader scope).post
      fun _ c hc => ?_
    exact ⟨fun _ => hc.1, Calmly.of_clean (.inl hc.2)⟩
  | false =>
    refine (calmSteps env hG (within_steps
      (Services.ModuleUnlock.require_within actor.sessionId actor.userId module'))).post
      fun _ c hc => ?_
    exact ⟨(fun h => by cases h), hc⟩

end Calmly

/-! ## What the handlers owe

The walk through the handlers: authentication first, then the permission, then the guard, then the
service.
-/

/-- The scope of the tokens that a request uses up for what is sensitive about it. A request that
changes nothing sensitive has none, and neither have those that only need their module
unlocked. -/
def Request.scope : Request → Option String
  | .changePassword .. => some Services.StepUp.passwordChangeScope
  | .updateUser .. => some Services.StepUp.usersSensitiveScope
  | .deleteUser .. | .batchDeleteUsers .. => some Services.StepUp.usersDeleteScope
  | .assignRoles .. | .batchAssignRoles .. => some Services.StepUp.usersRolesScope
  | .updateRole .. => some Services.StepUp.rolesSensitiveScope
  | .deleteRole .. => some Services.StepUp.rolesDeleteScope
  | .putRolePermissions .. => some Services.StepUp.rolesPermissionsScope
  | .createDepartment .. | .updateDepartment .. => some Services.StepUp.departmentsWriteScope
  | .deleteDepartment .. => some Services.StepUp.departmentsDeleteScope
  | _ => none

/-- The requests about accounts, roles and departments. -/
def Request.administers : Request → Bool
  | .createUser .. | .getRole .. | .createRole .. | .getRolePermissions .. => true
  | req => req.scope.isSome

/-- They all have cookies. -/
theorem parts_of_administers {req : Request} (h : req.administers = true) :
    req.parts.isSome = true := by
  cases req <;> first | rfl | cases h

/-- **What a commit owes.** If it changes anything but the time at which a session was last seen,
its request is authentic; if a request about accounts, roles or departments changes something sensitive, it
has used up a token of the session and its user for that. -/
def changeDuty (env : External) (p : Nat) (req : Request) (c : Conn Table) : Prop :=
  ∀ parts, req.parts = some parts →
    (¬c.LeavesAlone besideSessions →
      ∃ sessionId userId, Credentials env parts sessionId userId c.server.log) ∧
    (req.administers = true → ¬Calm c → ∃ sessionId userId scope, req.scope = some scope ∧
      Credentials env parts sessionId userId c.server.log ∧
        UsedToken c.server.log p sessionId userId scope)

/-- What is left to show once the request is known to be authentic. -/
def restDuty (p : Nat) (req : Request) (actor : ActorContext) (c : Conn Table) : Prop :=
  req.administers = true → ¬Calm c → ∃ scope, req.scope = some scope ∧
    UsedToken c.server.log p actor.sessionId actor.userId scope

theorem restDuty_of_calm {req : Request} {actor : ActorContext} {c : Conn Table} (h : Calm c) :
    restDuty p req actor c := fun _ hc => absurd h hc

theorem lasts_usedToken (p sessionId userId : Nat) (scope : String) :
    Lasts fun log => UsedToken log p sessionId userId scope := by
  intro log log' hsub hused
  obtain ⟨token, at', hlogged⟩ := hused
  exact ⟨token, at', hsub hlogged⟩

/-- **Once authentication is past**, only the token is left to show. -/
theorem serve_afterAuthentication {req : Request} {parts : Parts}
    {rest : ActorContext → Db Reply} (hparts : req.parts = some parts)
    (hserve : serve env config req = authenticate env parts >>= rest)
    (hrest : ∀ actor, (authenticate env parts).Yields actor →
      Triple (((sessionContract env).judge p).owing (restDuty p req actor)) p
        (fun c => c.RowRel .authSessions (KeyKept env) ∧ c.LeavesAlone besideSessions) (rest actor)
        fun _ _ => True) :
    Triple (((sessionContract env).judge p).owing (changeDuty env p req)) p
      (fun c => c.tx = none) (serve env config req) fun _ _ => True := by
  -- while authentication goes on nothing but a session changes
  have hcarried : Carried (((sessionContract env).judge p).owing (changeDuty env p req)) touches
      fun c => c.RowRel .authSessions (KeyKept env) ∧ c.LeavesAlone besideSessions := by
    refine carried_touches.owing fun c hc parts' _ => ⟨fun h => absurd hc.2 h, fun _ h => ?_⟩
    exact absurd (calmly_of_alone hc.1 hc.2).calm_nobody h
  rw [hserve]
  refine ((authenticate_establishes hcarried parts).yields.pre fun c hc =>
    hcarried.clean c (.inl hc)).bind fun actor => Triple.assuming fun hactor => ?_
  refine ((hrest actor hactor).lasting (lasts_credentials parts actor.sessionId actor.userId)
    fun c hcredentials hduty parts' hparts' => ?_).post fun _ _ _ => trivial
  have hsame : parts' = parts := Option.some.inj (hparts'.symm.trans hparts)
  subst hsame
  refine ⟨fun _ => ⟨actor.sessionId, actor.userId, hcredentials⟩, fun hadmin hsensitive => ?_⟩
  obtain ⟨scope, hscope, hused⟩ := hduty hadmin hsensitive
  exact ⟨actor.sessionId, actor.userId, scope, hscope, hcredentials, hused⟩

/-- What follows authentication keeps the values of the sessions. -/
theorem rest_keyed {req : Request} {parts : Parts} {rest : ActorContext → Db Reply}
    (hparts : req.parts = some parts)
    (hserve : serve env config req = authenticate env parts >>= rest) {actor : ActorContext}
    (hactor : (authenticate env parts).Yields actor) :
    (rest actor).All (Act.Speaks (keyedChanges env)) := by
  have hall : (serve env config req).All (Act.Speaks (keyedChanges env)) :=
    (serve_tells ordinary_keyed (serve_authenticates env config hparts).1
      (permitted_keyed req)).mono fun _ ha => ha.speaks
  rw [hserve] at hall
  exact hall.rest hactor

/-- A checked permission is checked right after authentication. -/
theorem requirePermission_bind (env : External) (parts : Parts) (code : String)
    (rest : ActorContext → Db Reply) : requirePermission env parts code >>= rest =
      authenticate env parts >>= fun actor =>
        Prog.reject (!actor.hasPermission code) (.forbidden ("缺少权限: " ++ code)) >>= fun _ =>
          rest actor := by
  unfold requirePermission
  rw [Prog.bind_assoc]
  refine congrArg (authenticate env parts >>= ·) (funext fun actor => ?_)
  exact Prog.bind_assoc _ _ _

/-- **The guard and what follows it**: where the guard asks for no token, what follows changes
nothing sensitive. -/
theorem guard_then {req : Request} {actor : ActorContext} {parts : Parts} (sensitive : Bool)
    {scope : String} (module' : String) {rest : Db Reply} (hscope : req.scope = some scope)
    (hrest : rest.All (Act.Speaks (keyedChanges env)))
    (hcalm : sensitive = false →
      Triple (((sessionContract env).judge p).owing (restDuty p req actor)) p
        (Calmly env nobody nobody) rest fun _ _ => True) :
    Triple (((sessionContract env).judge p).owing (restDuty p req actor)) p
      (Calmly env nobody nobody)
      (Handlers.stepUpOrUnlock env actor parts sensitive scope module' >>= fun _ => rest)
      fun _ _ => True := by
  refine (stepUpOrUnlock_guards env (fun _ => restDuty_of_calm) actor parts sensitive scope
    module').bind fun _ => ?_
  cases sensitive with
  | false => exact (hcalm rfl).pre fun c hc => hc.2
  | true =>
    -- the token has been used up before anything sensitive changes
    have hkeyed : Triple (((sessionContract env).judge p).owing fun _ => True) p
        (fun c => c.RowRel .authSessions (KeyKept env)) rest
        fun _ c => c.RowRel .authSessions (KeyKept env) :=
      Triple.speaks (carried_keyed.owing fun _ _ => trivial) hrest
    have hlasting : Triple (((sessionContract env).judge p).owing (restDuty p req actor)) p
        (fun c => UsedToken c.server.log p actor.sessionId actor.userId scope ∧
          c.RowRel .authSessions (KeyKept env)) rest _ :=
      hkeyed.lasting (lasts_usedToken p actor.sessionId actor.userId scope) fun c hused _ _ _ =>
        ⟨scope, hscope, hused⟩
    exact (hlasting.pre fun c hc => ⟨hc.1 rfl, hc.2.keys⟩).post fun _ _ _ => trivial

/-- Once a request is known to be authentic, what changes nothing sensitive owes nothing. -/
theorem rest_calm {req : Request} {actor : ActorContext} {α : Type} {m : Db α}
    (hm : m.All (Act.Within (calmChanges nobody nobody))) :
    Triple (((sessionContract env).judge p).owing (restDuty p req actor)) p
      (Calmly env nobody nobody) m fun _ => Calmly env nobody nobody :=
  calmSteps env (fun _ => restDuty_of_calm) (within_steps hm)

/-- **Every handler authenticates first.** -/
theorem serve_authenticated {req : Request} {parts : Parts} {rest : ActorContext → Db Reply}
    (hparts : req.parts = some parts)
    (hserve : serve env config req = authenticate env parts >>= rest)
    (hrest : ∀ actor, Triple (((sessionContract env).judge p).owing (restDuty p req actor)) p
      (Calmly env nobody nobody) (rest actor) fun _ _ => True) :
    Triple (((sessionContract env).judge p).owing (changeDuty env p req)) p
      (fun c => c.tx = none) (serve env config req) fun _ _ => True :=
  serve_afterAuthentication hparts hserve fun actor _ => (hrest actor).pre fun _ hc =>
    calmly_of_alone hc.1 hc.2

/-- **Most handlers check a permission then.** -/
theorem serve_permitted {req : Request} {parts : Parts} {code : String}
    {rest : ActorContext → Db Reply} (hparts : req.parts = some parts)
    (hserve : serve env config req = requirePermission env parts code >>= rest)
    (hrest : ∀ actor, Triple (((sessionContract env).judge p).owing (restDuty p req actor)) p
      (Calmly env nobody nobody) (rest actor) fun _ _ => True) :
    Triple (((sessionContract env).judge p).owing (changeDuty env p req)) p
      (fun c => c.tx = none) (serve env config req) fun _ _ => True := by
  refine serve_authenticated hparts (hserve.trans (requirePermission_bind _ _ _ _)) fun actor => ?_
  exact (rest_calm (all_reject _ _)).bind fun _ => hrest actor

/-- **A handler that always asks for a token** may call any service. -/
theorem serve_guarded {req : Request} {parts : Parts} {code scope : String}
    {rest : ActorContext → Db Reply} (hparts : req.parts = some parts)
    (hserve : serve env config req = requirePermission env parts code >>= fun actor =>
      Handlers.stepUp env actor parts scope >>= fun _ => rest actor)
    (hscope : req.scope = some scope)
    (hrest : ∀ actor, (rest actor).All (Act.Speaks (keyedChanges env))) :
    Triple (((sessionContract env).judge p).owing (changeDuty env p req)) p
      (fun c => c.tx = none) (serve env config req) fun _ _ => True :=
  serve_permitted hparts hserve fun actor =>
    guard_then true "" hscope (hrest actor) fun h => by cases h

/-- **A request about accounts, roles or departments** does its duty. -/
theorem serve_administers {req : Request} {parts : Parts} (hparts : req.parts = some parts)
    (hadmin : req.administers = true) :
    Triple (((sessionContract env).judge p).owing (changeDuty env p req)) p
      (fun c => c.tx = none) (serve env config req) fun _ _ => True := by
  -- the reply itself owes nothing
  have hreturn {actor : ActorContext} (reply : Reply) :
      Triple (((sessionContract env).judge p).owing (restDuty p req actor)) p
        (Calmly env nobody nobody) (Prog.ret reply : Db Reply) fun _ _ => True :=
    Triple.ret Calmly.stable fun _ _ _ => trivial
  have hpermitted : req.Permitted (keyedChanges env) := permitted_keyed req
  have hquiet : Ordinary (keyedChanges env) := ordinary_keyed
  cases req with
  -- requests without a session have no parts; the quiet ones do not administer
  | login | verifyTotp | verifyRecoveryCode | startPasskeyAuthentication
  | finishPasskeyAuthentication | bootstrapSuperAdmin => cases hparts
  | logout | me | stepUp | moduleUnlockStatus | moduleUnlock | mePermissions | mfaStatus
  | startPasskeyRegistration | finishPasskeyRegistration | revokePasskey
  | regenerateRecoveryCodes => cases hadmin
  | changePassword _ req =>
    cases hparts
    refine serve_authenticated rfl rfl fun actor => ?_
    exact guard_then true "" rfl
      (steps_tells (.bind (Services.Auth.changePassword_steps hquiet _ _) fun _ => .ret))
      fun h => by cases h
  -- A creation changes no row that exists, so it is calm without a proof; its check may be skipped
  -- for an unlocked module.
  | createUser _ req =>
    cases hparts
    refine serve_permitted rfl rfl fun actor => ?_
    refine (rest_calm (.whenever (all_reject _ _))).bind fun _ => ?_
    refine (rest_calm (.whenever (all_reject _ _))).bind fun _ => ?_
    refine (rest_calm (.whenever (all_reject _ _))).bind fun _ => ?_
    refine ((stepUpOrUnlock_guards env (fun _ => restDuty_of_calm) _ _ _ _ _).post
      fun _ c hc => hc.2).bind fun _ => ?_
    exact (createUser_calm env (fun _ => restDuty_of_calm) _ _ _ _).bind fun _ => hreturn _
  | updateUser _ id req =>
    cases hparts
    refine serve_permitted rfl rfl fun actor => ?_
    refine (rest_calm (.whenever (all_reject _ _))).bind fun _ => ?_
    refine (rest_calm (.whenever (all_reject _ _))).bind fun _ => ?_
    refine (rest_calm (.whenever (all_reject _ _))).bind fun _ => ?_
    refine guard_then _ _ rfl
      (steps_tells (.bind (Services.Users.update_steps hquiet hpermitted _ _ _ _ _) fun _ => .ret))
      fun h => ?_
    -- no sensitive field is set: the UPDATE keeps the four columns
    obtain ⟨hprofile, hdepartment⟩ := Bool.or_eq_false_iff.1 h
    obtain ⟨hpassword, hstatus⟩ := Bool.or_eq_false_iff.1 hprofile
    exact (updateUser_calm env (fun _ => restDuty_of_calm) _ _ _ _ _
      (Option.isSome_eq_false_iff.1 hpassword |> Option.isNone_iff_eq_none.1)
      (Option.isSome_eq_false_iff.1 hstatus |> Option.isNone_iff_eq_none.1)
      (Option.isSome_eq_false_iff.1 hdepartment |> Option.isNone_iff_eq_none.1)).bind
        fun _ => hreturn _
  | deleteUser _ id =>
    cases hparts
    exact serve_guarded rfl rfl rfl fun _ =>
      steps_tells (.bind (Services.Users.delete_steps hquiet _ _) fun _ => .ret)
  | batchDeleteUsers _ req =>
    cases hparts
    exact serve_guarded rfl rfl rfl fun _ =>
      steps_tells (.bind (Services.Users.deleteMany_steps hquiet _ _) fun _ => .ret)
  | assignRoles _ id req =>
    cases hparts
    exact serve_guarded rfl rfl rfl fun _ =>
      .bind (Services.Users.assignRoles_tells hquiet hpermitted _ _ _ _ fun _ => trivial)
        fun _ => .ret
  | batchAssignRoles _ req =>
    cases hparts
    exact serve_guarded rfl rfl rfl fun _ =>
      .bind (Services.Users.assignRolesMany_tells hquiet hpermitted _ _ _ fun _ _ => trivial)
        fun _ => .ret
  | getRole _ id =>
    cases hparts
    refine serve_permitted rfl rfl fun actor => ?_
    exact (rest_calm (Services.Roles.get_within _)).bind fun _ => hreturn _
  | createRole _ req =>
    cases hparts
    refine serve_permitted rfl rfl fun actor => ?_
    refine (rest_calm (.whenever (all_reject _ _))).bind fun _ => ?_
    refine ((stepUpOrUnlock_guards env (fun _ => restDuty_of_calm) _ _ _ _ _).post
      fun _ c hc => hc.2).bind fun _ => ?_
    exact (createRole_calm env (fun _ => restDuty_of_calm) _ _ _ _).bind fun _ => hreturn _
  | updateRole _ id req =>
    cases hparts
    refine serve_permitted rfl rfl fun actor => ?_
    refine guard_then _ _ rfl
      (steps_tells (.bind (Services.Roles.update_steps hquiet hpermitted _ _ _ _) fun _ => .ret))
      fun h => ?_
    -- neither the scope nor the state: the role keeps both
    obtain ⟨hscope, hactive⟩ := Bool.or_eq_false_iff.1 h
    exact (updateRole_calm env (fun _ => restDuty_of_calm) _ _ _ _
      (Option.isSome_eq_false_iff.1 hscope |> Option.isNone_iff_eq_none.1)
      (Option.isSome_eq_false_iff.1 hactive |> Option.isNone_iff_eq_none.1)).bind
        fun _ => hreturn _
  | deleteRole _ id =>
    cases hparts
    have hroles : Free (keyedChanges env) .roles := hpermitted
    exact serve_guarded rfl rfl rfl fun _ =>
      steps_tells (.bind (Services.Roles.delete_steps hquiet hroles.edits _ _) fun _ => .ret)
  | getRolePermissions _ id =>
    cases hparts
    refine serve_permitted rfl rfl fun actor => ?_
    exact (rest_calm (Services.Roles.getPermissions_within _)).bind fun _ => hreturn _
  | putRolePermissions _ id req =>
    cases hparts
    exact serve_guarded rfl rfl rfl fun _ =>
      .bind (Services.Roles.assignPermissions_tells hquiet hpermitted _ _ _ fun _ => trivial)
        fun _ => .ret
  | createDepartment _ req =>
    cases hparts
    exact serve_guarded rfl rfl rfl fun _ =>
      steps_tells (.bind (Services.Departments.create_steps hquiet hpermitted _ _) fun _ => .ret)
  | updateDepartment _ id req =>
    cases hparts
    exact serve_guarded rfl rfl rfl fun _ =>
      steps_tells (.bind (Services.Departments.update_steps hquiet hpermitted _ _ _) fun _ => .ret)
  | deleteDepartment _ id =>
    cases hparts
    exact serve_guarded rfl rfl rfl fun _ =>
      steps_tells (.bind (Services.Departments.delete_steps hquiet hpermitted _ _) fun _ => .ret)

/-- **Every request does its duty.** -/
theorem serve_dutiful (req : Request) :
    Triple (((sessionContract env).judge p).owing (changeDuty env p req)) p
      (fun c => c.tx = none) (serve env config req) fun _ _ => True := by
  cases hparts : req.parts with
  | none =>
    -- such a request owes nothing
    intro c hc
    have hclean : c.RowRel .authSessions (KeyKept env) :=
      (carried_keyed (p := p)).clean c (.inl hc)
    exact wp_guar (fun _ hg => ⟨hg, fun parts h => by cases hparts.symm.trans h⟩)
      (wp_mono (fun _ _ _ => trivial) (serve_keyed req c hclean))
  | some parts =>
    cases hadmin : req.administers with
    | true => exact serve_administers hparts hadmin
    | false =>
      obtain ⟨rest, hserve⟩ := (serve_authenticates env config hparts).2
      refine serve_afterAuthentication hparts hserve fun actor hactor => ?_
      refine ((Triple.speaks (carried_keyed.owing fun c _ h => ?_)
        (rest_keyed hparts hserve hactor)).pre fun c hc => hc.1).post
          fun _ _ _ => trivial
      rw [hadmin] at h
      cases h

/-- **All requests together keep the contract.** -/
theorem requests_dutiful (env : External) (config : AuthSessionConfig) {s₀ : Server Table}
    (h₀ : s₀.Wf) (hsessions : s₀.store.rows .authSessions = []) :
    (sessionContract env).KeptAs (serve env config) s₀ (changeDuty env) fun _ _ _ _ => True where
  base C h p := by
    refine ⟨h.wf h₀ p, rowLaw_session.reachable h₀ (fun id row hrow => ?_) h p⟩
    rw [Store.get_of_rows_nil hsessions id] at hrow
    cases hrow
  init id row hrow := by
    rw [Store.get_of_rows_nil hsessions id] at hrow
    cases hrow
  advance _ _ _ h := h
  prog p req := serve_dutiful req

/-! ## The main theorems

What every commit of every run has done before.
-/

/-- **Every change is authentic.** In every interleaving of all requests, whatever changes beside
the sessions is committed by a program whose request, if such requests carry cookies, had those of a
session, and was not forged. -/
theorem changes_authentic (env : External) (config : AuthSessionConfig) {s₀ : Server Table}
    (h₀ : s₀.Wf) (hsessions : s₀.store.rows .authSessions = [])
    {C C' : Db.Config} (hC : Reachable (serve env config) s₀ C)
    (hs : Step (serve env config) (fun _ _ => True) C C') (t : Table) (id : t.Id)
    (ht : t ≠ .authSessions)
    (hchange : C'.server.store.get t id ≠ C.server.store.get t id) :
    ∃ p pr, CommitOf C C' p pr ∧ ∀ parts, pr.req.parts = some parts →
      ∃ sessionId userId, Credentials env parts sessionId userId C.server.log := by
  obtain ⟨p, pr, hcommit⟩ := hs.commit_of_changed hchange
  obtain ⟨k, hcode⟩ := hcommit.code
  have hduty := (requests_dutiful env config h₀ hsessions).duty_of_commit hC hcommit.proc hcode
  refine ⟨p, pr, hcommit, fun parts hparts => (hduty parts hparts).1 fun halone => hchange ?_⟩
  rw [hcommit.stored]
  exact halone t ht id

/-- `clerk` before and after the accountDeletion. -/
theorem accountDeletion_deletes :
    (accountDeletion.config.server.store.get .users (12 : Nat)).any
        (fun u : UserRow => u.deletedAt.isNone) = true ∧
      ((accountDeletion.next 2).config.server.store.get .users (12 : Nat)).all
        (fun u : UserRow => u.deletedAt.isSome) = true := by
  rw [Stage.server_config, Stage.server_config]
  decide +kernel

theorem accountDeletion_sensitive : ¬SameAccount (accountDeletion.config.server.store.get .users (12 : Nat))
    ((accountDeletion.next 2).config.server.store.get .users (12 : Nat)) := by
  intro h
  obtain ⟨hbefore, hafter⟩ := accountDeletion_deletes
  obtain ⟨u, hu, hnone⟩ := (Option.any_eq_true _ _).1 hbefore
  obtain ⟨v, hv, _, _, _, hdeleted⟩ := h u hu
  have hsome : v.deletedAt.isSome = true := (Option.all_eq_true _ _).1 hafter v hv
  rw [hdeleted, Option.isNone_iff_eq_none.1 hnone] at hsome
  cases hsome

theorem accountDeletion_step : Step (serve Sample.external Sample.config) (fun _ _ => True)
    accountDeletion.config (accountDeletion.next 2).config := by
  refine Stage.step_next _ _ 2 fun h => accountDeletion_sensitive ?_
  rw [h]
  exact SameAccount.refl _

theorem changes_authentic_sample : ∃ p pr,
    CommitOf accountDeletion.config (accountDeletion.next 2).config p pr ∧ ∀ parts,
      pr.req.parts = some parts → ∃ sessionId userId,
      Credentials Sample.external parts sessionId userId accountDeletion.config.server.log := by
  refine changes_authentic Sample.external Sample.config Sample.server_wf (by decide)
    accountDeletion_reachable accountDeletion_step .users (12 : Nat) (by decide) fun h => ?_
  refine accountDeletion_sensitive ?_
  rw [h]
  exact SameAccount.refl _

/-- **Every sensitive change is authorized.** In every interleaving of all requests, a request about
accounts, roles or departments that changes something sensitive had the cookies of a session, and has used up a
token that was issued to that session and its user for what it does. -/
theorem sensitive_authorized (env : External) (config : AuthSessionConfig) {s₀ : Server Table}
    (h₀ : s₀.Wf) (hsessions : s₀.store.rows .authSessions = [])
    {C C' : Db.Config} (hC : Reachable (serve env config) s₀ C)
    (hs : Step (serve env config) (fun _ _ => True) C C') (t : Table) (id : t.Id)
    (hchange : Sensitive C.server.store t id (C.server.store.get t id)
      (C'.server.store.get t id)) :
    ∃ p pr, CommitOf C C' p pr ∧ (pr.req.administers = true →
      ∃ parts sessionId userId scope, pr.req.parts = some parts ∧ pr.req.scope = some scope ∧
        Credentials env parts sessionId userId C.server.log ∧
          UsedToken C.server.log p sessionId userId scope) := by
  have hdiffers : C'.server.store.get t id ≠ C.server.store.get t id :=
    fun heq => not_sensitive_refl _ t id _ (heq ▸ hchange)
  obtain ⟨p, pr, hcommit⟩ := hs.commit_of_changed hdiffers
  obtain ⟨k, hcode⟩ := hcommit.code
  refine ⟨p, pr, hcommit, fun hadmin => ?_⟩
  obtain ⟨parts, hparts⟩ := Option.isSome_iff_exists.1 (parts_of_administers hadmin)
  have hduty := (requests_dutiful env config h₀ hsessions).duty_of_commit hC hcommit.proc hcode
  have hcalm : ¬Calm (C.conn p) := by
    intro hcalm
    rw [hcommit.stored] at hchange
    exact hcalm t id hchange
  obtain ⟨sessionId, userId, scope, hscope, hcredentials, hused⟩ :=
    (hduty parts hparts).2 hadmin hcalm
  exact ⟨parts, sessionId, userId, scope, hparts, hscope, hcredentials, hused⟩

theorem sensitive_authorized_sample : ∃ p pr,
    CommitOf accountDeletion.config (accountDeletion.next 2).config p pr ∧ (pr.req.administers = true →
      ∃ parts sessionId userId scope, pr.req.parts = some parts ∧ pr.req.scope = some scope ∧
        Credentials Sample.external parts sessionId userId accountDeletion.config.server.log ∧
          UsedToken accountDeletion.config.server.log p sessionId userId scope) :=
  sensitive_authorized Sample.external Sample.config Sample.server_wf (by decide)
    accountDeletion_reachable accountDeletion_step .users (12 : Nat) accountDeletion_sensitive

end ArcAdmin
