import ArcAdmin.Frontend.AuthService

/-!
# Stale responses

What the client shows of a session should have been asked for after the session was cleared for the
last time. Only `refreshPermissions` looks whether it was: every other piece of code that shows
something takes the answer as it comes.

* **`Inv`** — what holds while no answer of theirs has been overtaken;
* **`fresh_iff_timely`** — a run shows nothing stale exactly when no such answer is overtaken.
-/

namespace ArcAdmin

namespace Frontend

open Runs

variable {User Mfa Code : Type} {c c' : Client User Mfa Code}

/-- How often the session had been cleared when the request was issued. -/
def Client.issuedAt (c : Client User Mfa Code) (request : Nat) : Option Nat :=
  c.requests[request]?.map Issued.cleared

/-- **Nothing stale.** A field is set from replies to requests that no `clearSession` has overtaken,
and the permissions that are shown were asked for after the latest one. -/
structure Fresh [DecidableEq Code] (c : Client User Mfa Code) : Prop where
  sets : ∀ write ∈ c.writes, c.issuedAt write.request = some write.cleared
  shown : c.permissionState = ∅ ∨ ∃ issued ∈ c.requests, issued.cleared = c.cleared ∧
    ∃ codes, issued.reply = some (.permissions codes) ∧ c.permissionState = codes.toFinset

/-- The requests whose replies the next piece of a promise shows as they are: those of a login, of
the session, of its refresh, of the second factors. -/
def Client.carriedBy (c : Client User Mfa Code) : Task → List Nat
  | .login request | .verify request =>
    match c.reply request with
    | some (.login .authenticated (some _)) => [request]
    | _ => []
  | .mfaStatus request _ | .registration request =>
    match c.reply request with
    | some (.mfaStatus _) => [request]
    | _ => []
  | .session user permissions | .refreshSession user permissions =>
    match c.both user permissions with
    | some (some _) => [user, permissions]
    | _ => []
  | _ => []

def Client.carried (c : Client User Mfa Code) (id : Nat) : List Nat :=
  (c.tasks[id]?.map c.carriedBy).getD []

/-- The session was not cleared while these requests were on their way. -/
def Timely (c : Client User Mfa Code) : Event User Mfa Code → Prop
  | .resume id => ∀ request ∈ c.carried id, c.issuedAt request = some c.cleared
  | _ => True

/-- Nothing stale is shown, and `refreshPermissions` knows when its requests were issued. -/
structure Inv [DecidableEq Code] (c : Client User Mfa Code) : Prop extends Fresh c where
  epoch : c.permissionEpoch = c.cleared
  checks : ∀ request epoch, Task.permissions request epoch ∈ c.tasks → c.issuedAt request = some epoch

/-! ## Requests and promises

New requests and promises do not change what has been issued before.
-/

section Primitives

variable [DecidableEq Code] {id request : Nat} {task : Task} {endpoint : Endpoint}

omit [DecidableEq Code] in
theorem issuedAt_invoke {cleared : Nat} (h : c.issuedAt request = some cleared) :
    (c.invoke endpoint).1.issuedAt request = some cleared := by
  obtain ⟨issued, hget, rfl⟩ := Option.map_eq_some_iff.1 h
  have hlt : request < c.requests.length := (List.getElem?_eq_some_iff.1 hget).1
  show ((c.requests ++ [_])[request]?).map Issued.cleared = _
  rw [List.getElem?_append_left hlt, hget]
  rfl

omit [DecidableEq Code] in
theorem issuedAt_invoke_new : (c.invoke endpoint).1.issuedAt (c.invoke endpoint).2 = some c.cleared := by
  show ((c.requests ++ [_])[c.requests.length]?).map Issued.cleared = _
  rw [List.getElem?_concat_length]
  rfl

theorem Inv.invoke (h : Inv c) (endpoint : Endpoint) : Inv (c.invoke endpoint).1 where
  sets write hwrite := issuedAt_invoke (h.sets write hwrite)
  shown := by
    rcases h.shown with hempty | ⟨issued, hmem, hshown⟩
    · exact Or.inl hempty
    · exact Or.inr ⟨issued, List.mem_append_left _ hmem, hshown⟩
  epoch := h.epoch
  checks request epoch hmem := issuedAt_invoke (h.checks request epoch hmem)

theorem Inv.start (h : Inv c)
    (htask : ∀ request epoch, task = .permissions request epoch → c.issuedAt request = some epoch) :
    Inv (c.start task).1 where
  sets := h.sets
  shown := h.shown
  epoch := h.epoch
  checks request epoch hmem := by
    rcases List.mem_append.1 hmem with hmem | hmem
    · exact h.checks request epoch hmem
    · exact htask request epoch (List.mem_singleton.1 hmem).symm

theorem Inv.proceed (h : Inv c) (id : Nat)
    (htask : ∀ request epoch, task = .permissions request epoch → c.issuedAt request = some epoch) :
    Inv (c.proceed id task) where
  sets := h.sets
  shown := h.shown
  epoch := h.epoch
  checks request epoch hmem := by
    rcases List.mem_or_eq_of_mem_set hmem with hmem | heq
    · exact h.checks request epoch hmem
    · exact htask request epoch heq.symm

theorem Inv.await {task : Nat → Task} (h : Inv c) (endpoint : Endpoint)
    (htask : ∀ request epoch, task c.requests.length = .permissions request epoch →
      request = c.requests.length ∧ epoch = c.cleared) :
    Inv (c.await endpoint task).1 := by
  apply (h.invoke endpoint).start
  intro request epoch heq
  obtain ⟨rfl, rfl⟩ := htask request epoch heq
  exact issuedAt_invoke_new

/-! ## What is shown

Each setter shows something of one request, and is fresh if that request is.
-/

theorem Inv.set_field {field : Field} (h : Inv c) (hissued : c.issuedAt request = some c.cleared) :
    ∀ write ∈ c.writes ++ [⟨field, request, c.cleared⟩], c.issuedAt write.request = some write.cleared := by
  intro write hwrite
  rcases List.mem_append.1 hwrite with hwrite | hwrite
  · exact h.sets write hwrite
  · obtain rfl := List.mem_singleton.1 hwrite
    exact hissued

theorem Inv.setUser (h : Inv c) (user : User) (hissued : c.issuedAt request = some c.cleared) :
    Inv (c.setUser request user) where
  sets := h.set_field hissued
  shown := h.shown
  epoch := h.epoch
  checks := h.checks

theorem Inv.setMfaStatus (h : Inv c) (status : Mfa) (hissued : c.issuedAt request = some c.cleared) :
    Inv (c.setMfaStatus request status) where
  sets := h.set_field hissued
  shown := h.shown
  epoch := h.epoch
  checks := h.checks

theorem Inv.setPermissions {codes : List Code} (h : Inv c)
    (hissued : c.issuedAt request = some c.cleared)
    (hreply : c.reply request = some (.permissions codes)) : Inv (c.setPermissions request codes) where
  sets := h.set_field hissued
  shown := by
    obtain ⟨issued, hget, hcodes⟩ := Option.bind_eq_some_iff.1 hreply
    obtain ⟨issued', hget', hcleared⟩ := Option.map_eq_some_iff.1 hissued
    obtain rfl : issued = issued' := Option.some.inj (hget.symm.trans hget')
    exact Or.inr ⟨issued, List.mem_of_getElem? hget, hcleared, codes, hcodes, rfl⟩
  epoch := h.epoch
  checks := h.checks

theorem Inv.clearSession (h : Inv c) : Inv c.clearSession where
  sets := h.sets
  shown := Or.inl rfl
  epoch := congrArg (· + 1) h.epoch
  checks := h.checks

/-! ## Calls

A call issues its first request now, so it cannot have been overtaken yet.
-/

theorem Inv.refreshPermissions (h : Inv c) : Inv c.refreshPermissions.1 := by
  unfold Client.refreshPermissions
  cases c.permissionCheck with
  | some check => exact h
  | none =>
    have hawait : Inv (c.await .getCurrentUserPermissions (.permissions · c.permissionEpoch)).1 := by
      apply h.await
      intro request epoch heq
      obtain ⟨rfl, rfl⟩ : _ = request ∧ _ = epoch := by simpa using heq
      exact ⟨rfl, h.epoch⟩
    exact ⟨⟨hawait.sets, hawait.shown⟩, hawait.epoch, hawait.checks⟩

theorem Inv.ensureMfaStatus (h : Inv c) : Inv c.ensureMfaStatus := by
  unfold Client.ensureMfaStatus
  by_cases hstatus : c.mfaStatusState.isSome = true
  · rw [if_pos hstatus]
    exact h
  · rw [if_neg hstatus]
    by_cases hcheck : c.mfaStatusCheck.isSome = true
    · rw [if_pos hcheck]
      exact h
    · rw [if_neg hcheck]
      have hawait : Inv (c.await .getCurrentUserMfaStatus (.mfaStatus · true)).1 :=
        h.await _ (by simp)
      exact ⟨⟨hawait.sets, hawait.shown⟩, hawait.epoch, hawait.checks⟩

theorem Inv.ensureSession (h : Inv c) : Inv c.ensureSession := by
  unfold Client.ensureSession
  by_cases huser : c.userState.isSome = true
  · rw [if_pos huser]
    exact h.refreshPermissions.start (by simp)
  · rw [if_neg huser]
    by_cases hcheck : c.sessionCheck.isSome = true
    · rw [if_pos hcheck]
      exact h
    · rw [if_neg hcheck]
      have hawait : Inv ((c.invoke .getCurrentUser).1.await .getCurrentUserPermissions
          (.session c.requests.length)).1 :=
        (h.invoke .getCurrentUser).await _ (by simp)
      exact ⟨⟨hawait.sets, hawait.shown⟩, hawait.epoch, hawait.checks⟩

/-- A call shows nothing. -/
theorem Inv.call (h : Inv c) (call : Call) : Inv (c.call call) := by
  cases call with
  | login => exact h.await _ (by simp)
  | verifyTotp => exact h.await _ (by simp)
  | verifyRecoveryCode => exact h.await _ (by simp)
  | authenticateWithPasskey => exact h.await _ (by simp)
  | getMfaStatus => exact h.await _ (by simp)
  | ensureMfaStatus => exact h.ensureMfaStatus
  | registerPasskey => exact h.await _ (by simp)
  | revokePasskey => exact h.await _ (by simp)
  | regenerateRecoveryCodes => exact h.await _ (by simp)
  | ensureSession => exact h.ensureSession
  | changePassword => exact h.await _ (by simp)
  | refreshSession => exact (h.invoke _).await _ (by simp)
  | logout => exact h.await _ (by simp)
  | handleUnauthorized => exact h.clearSession
  | refreshPermissions => exact h.refreshPermissions

/-! ## Answers

An answer that arrives is stored with its request; what it does comes later.
-/

/-- An answer that arrives shows nothing. -/
theorem Inv.respond {reply : Reply User Mfa Code} (h : Inv c)
    (hstep : c.respond request reply = some c') : Inv c' := by
  unfold Client.respond at hstep
  cases hget : c.requests[request]? with
  | none => simp [hget] at hstep
  | some issued =>
    rw [hget] at hstep
    dsimp only at hstep
    by_cases hopen : issued.reply.isNone = true ∧ issued.endpoint.answers reply = true
    · rw [if_pos hopen] at hstep
      have hissued : ∀ other cleared, c.issuedAt other = some cleared →
          ((c.requests.set request { issued with reply := some reply })[other]?).map Issued.cleared =
            some cleared := by
        intro other cleared hother
        rw [List.getElem?_set]
        by_cases heq : request = other
        · subst heq
          obtain ⟨found, hfound, rfl⟩ := Option.map_eq_some_iff.1 hother
          obtain rfl : issued = found := Option.some.inj (hget.symm.trans hfound)
          rw [if_pos rfl, if_pos (List.getElem?_eq_some_iff.1 hget).1]
          rfl
        · rw [if_neg heq]
          exact hother
      have hanswered : Inv { c with
          requests := c.requests.set request { issued with reply := some reply } } := by
        refine ⟨⟨fun write hwrite => hissued _ _ (h.sets write hwrite), ?_⟩, h.epoch,
          fun other epoch hmem => hissued _ _ (h.checks other epoch hmem)⟩
        rcases h.shown with hempty | ⟨shown, hmem, hcleared, codes, hcodes, hshown⟩
        · exact Or.inl hempty
        · refine Or.inr ⟨shown, ?_, hcleared, codes, hcodes, hshown⟩
          -- the reply that is shown has come before
          have hne : issued ≠ shown := by
            rintro rfl
            simp [hcodes] at hopen
          obtain ⟨index, hindex⟩ := List.mem_iff_getElem?.1 hmem
          have hother : request ≠ index := by
            rintro rfl
            exact hne (Option.some.inj (hget.symm.trans hindex))
          apply List.mem_of_getElem? (i := index)
          rw [List.getElem?_set_ne hother, hindex]
      cases reply with
      | failed unauthorized =>
        cases unauthorized with
        | true => exact Option.some.inj hstep ▸ hanswered.clearSession
        | false => exact Option.some.inj hstep ▸ hanswered
      | _ => exact Option.some.inj hstep ▸ hanswered
    · rw [if_neg hopen] at hstep
      exact absurd hstep (by simp)

/-! ## What comes behind the answers

The one kind of step that shows something.
-/

theorem Inv.completeLogin (h : Inv c) (id : Nat) {status : LoginStatus} {user : Option User}
    (hissued : ∀ shown, status = .authenticated → user = some shown →
      c.issuedAt request = some c.cleared) : Inv (c.completeLogin id request status user) := by
  unfold Client.completeLogin
  split
  · next shown => exact ((h.setUser shown (hissued shown rfl rfl)).refreshPermissions).proceed id (by simp)
  · exact h.proceed id (by simp)

theorem Inv.awaitThen {task : Nat → Task} (h : Inv c)
    (htask : ∀ request epoch other, task other ≠ .permissions request epoch)
    (hstep : c.awaitThen id request endpoint task = some c') : Inv c' := by
  unfold Client.awaitThen at hstep
  split at hstep
  · obtain rfl := Option.some.inj hstep
    exact (h.invoke endpoint).proceed id fun request epoch heq => absurd heq (htask _ _ _)
  · obtain rfl := Option.some.inj hstep
    exact h.proceed id (by simp)
  · exact absurd hstep (by simp)

theorem Inv.showSession {userRequest permissionsRequest : Nat} {user : User} {codes : List Code}
    (h : Inv c) (huser : c.issuedAt userRequest = some c.cleared)
    (hpermissions : c.issuedAt permissionsRequest = some c.cleared)
    (hreply : c.reply permissionsRequest = some (.permissions codes)) :
    Inv (c.showSession userRequest permissionsRequest user codes) :=
  (h.setUser user huser).setPermissions hpermissions hreply

omit [DecidableEq Code] in
theorem reply_of_both {userRequest permissionsRequest : Nat} {user : User} {codes : List Code}
    (h : c.both userRequest permissionsRequest = some (some (user, codes))) :
    c.reply userRequest = some (.user user) ∧
      c.reply permissionsRequest = some (.permissions codes) := by
  unfold Client.both at h
  split at h
  · next huser hpermissions =>
    obtain ⟨rfl, rfl⟩ : _ = user ∧ _ = codes := by simpa using h
    exact ⟨huser, hpermissions⟩
  all_goals simp at h

/-- A task that notes no epoch down may take the place of any other. -/
theorem Inv.proceed_plain {next : Task} (h : Inv c) (id : Nat)
    (hnext : ∀ request epoch, next ≠ .permissions request epoch) : Inv (c.proceed id next) :=
  h.proceed id fun request epoch heq => absurd heq (hnext request epoch)

/-! ### What most tasks do with an answer

An answer that says what is to be shown is shown, and the task goes on to `next`; after a failure it goes
on to something else. There is one lemma for each kind of answer, and the tasks that wait for it use it
with what they go on to. -/

/-- The status of the second factor, or a failure. -/
theorem Inv.mfaAnswer {next failed : Task} (h : Inv c)
    (htimely : ∀ status, c.reply request = some (.mfaStatus status) →
      c.issuedAt request = some c.cleared)
    (hnext : ∀ request epoch, next ≠ .permissions request epoch)
    (hfailed : ∀ request epoch, failed ≠ .permissions request epoch)
    (hpiece : (match c.reply request with
      | some (.mfaStatus status) => some ((c.setMfaStatus request status).proceed id next)
      | some (.failed _) => some (c.proceed id failed)
      | _ => none) = some c') : Inv c' := by
  split at hpiece
  · next status hreply =>
    obtain rfl := Option.some.inj hpiece
    exact (h.setMfaStatus status (htimely status hreply)).proceed_plain id hnext
  · obtain rfl := Option.some.inj hpiece
    exact h.proceed_plain id hfailed
  · exact absurd hpiece (by simp)

/-- The user and the permissions, or a failure of one of the two requests. -/
theorem Inv.sessionAnswer {userRequest permissionsRequest : Nat} {next : Task}
    {failed : Client User Mfa Code} (h : Inv c)
    (htimely : ∀ shown codes, c.both userRequest permissionsRequest = some (some (shown, codes)) →
      c.issuedAt userRequest = some c.cleared ∧ c.issuedAt permissionsRequest = some c.cleared)
    (hnext : ∀ request epoch, next ≠ .permissions request epoch) (hfailed : Inv failed)
    (hpiece : (match c.both userRequest permissionsRequest with
      | some (some (shown, codes)) =>
        some ((c.showSession userRequest permissionsRequest shown codes).proceed id next)
      | some none => some failed
      | none => none) = some c') : Inv c' := by
  split at hpiece
  · next shown codes hboth =>
    obtain ⟨huser, hpermissions⟩ := htimely shown codes hboth
    obtain rfl := Option.some.inj hpiece
    exact (h.showSession huser hpermissions (reply_of_both hboth).2).proceed_plain id hnext
  · obtain rfl := Option.some.inj hpiece
    exact hfailed
  · exact absurd hpiece (by simp)

/-- The outcome of another task. -/
theorem Inv.outcome {check : Nat} {failed : Client User Mfa Code} (h : Inv c) (hfailed : Inv failed)
    (hpiece : (match c.outcome check with
      | some true => some (c.proceed id (.settled true))
      | some false => some failed
      | none => none) = some c') : Inv c' := by
  split at hpiece
  · obtain rfl := Option.some.inj hpiece
    exact h.proceed_plain id (by simp)
  · obtain rfl := Option.some.inj hpiece
    exact hfailed
  · exact absurd hpiece (by simp)

/-- The answer to a login. The one to a password may ask for a second factor. -/
theorem Inv.loginAnswer (h : Inv c)
    (htimely : ∀ user, c.reply request = some (.login .authenticated (some user)) →
      c.issuedAt request = some c.cleared)
    (hpiece : c.resumeTask id (.login request) = some c') : Inv c' := by
  unfold Client.resumeTask at hpiece
  dsimp only at hpiece
  split at hpiece
  · next status user hreply =>
    split at hpiece
    · obtain rfl := Option.some.inj hpiece
      apply h.completeLogin
      rintro shown rfl rfl
      exact htimely shown hreply
    · obtain rfl := Option.some.inj hpiece
      exact h.proceed_plain id (by simp)
  · obtain rfl := Option.some.inj hpiece
    exact h.proceed_plain id (by simp)
  · exact absurd hpiece (by simp)

/-- The answer to a second factor. -/
theorem Inv.verifyAnswer (h : Inv c)
    (htimely : ∀ user, c.reply request = some (.login .authenticated (some user)) →
      c.issuedAt request = some c.cleared)
    (hpiece : c.resumeTask id (.verify request) = some c') : Inv c' := by
  unfold Client.resumeTask at hpiece
  dsimp only at hpiece
  split at hpiece
  · next status user hreply =>
    obtain rfl := Option.some.inj hpiece
    apply h.completeLogin
    rintro shown rfl rfl
    exact htimely shown hreply
  · obtain rfl := Option.some.inj hpiece
    exact h.proceed_plain id (by simp)
  · exact absurd hpiece (by simp)

/-- The answer to a call that ends the session. -/
theorem Inv.clearingAnswer {always : Bool} (h : Inv c)
    (hpiece : c.resumeTask id (.clearing request always) = some c') : Inv c' := by
  unfold Client.resumeTask at hpiece
  dsimp only at hpiece
  split at hpiece
  · obtain rfl := Option.some.inj hpiece
    exact h.clearSession.proceed_plain id (by simp)
  · split at hpiece
    · obtain rfl := Option.some.inj hpiece
      exact h.clearSession.proceed_plain id (by simp)
    · obtain rfl := Option.some.inj hpiece
      exact h.proceed_plain id (by simp)
  · exact absurd hpiece (by simp)

/-- The permissions alone. They are shown if the epoch is still the one that was noted down with the
request, which is the number of times the session had been cleared by then. -/
theorem Inv.permissionsAnswer {epoch : Nat} (h : Inv c)
    (hmem : Task.permissions request epoch ∈ c.tasks)
    (hpiece : c.resumeTask id (.permissions request epoch) = some c') : Inv c' := by
  unfold Client.resumeTask at hpiece
  dsimp only at hpiece
  split at hpiece
  · next codes hreply =>
    split at hpiece
    · next hepoch =>
      obtain rfl := Option.some.inj hpiece
      have hissued : c.issuedAt request = some c.cleared := by
        rw [h.checks request epoch hmem, hepoch, h.epoch]
      exact (h.setPermissions hissued hreply).proceed_plain id (by simp)
    · obtain rfl := Option.some.inj hpiece
      exact h.proceed_plain id (by simp)
  · obtain rfl := Option.some.inj hpiece
    exact h.proceed_plain id (by simp)
  · exact absurd hpiece (by simp)

/-- **One piece of code**, where what it shows has not been overtaken. -/
theorem Inv.resumeTask (h : Inv c) (hmem : task ∈ c.tasks)
    (htimely : ∀ request ∈ c.carriedBy task, c.issuedAt request = some c.cleared)
    (hpiece : c.resumeTask id task = some c') : Inv c' := by
  unfold Client.carriedBy at htimely
  cases task with
  | login request =>
    refine h.loginAnswer (fun user hreply => ?_) hpiece
    dsimp only at htimely
    rw [hreply] at htimely
    exact htimely request (by simp)
  | verify request =>
    refine h.verifyAnswer (fun user hreply => ?_) hpiece
    dsimp only at htimely
    rw [hreply] at htimely
    exact htimely request (by simp)
  | passkeyChallenge request | passkeyCredential request | registrationChallenge request
  | registrationCredential request => exact h.awaitThen (by simp) hpiece
  | completing check =>
    -- a session without the second factor is ended
    exact h.outcome ((h.invoke .logout).proceed_plain id (by simp)) hpiece
  | revoking request =>
    unfold Client.resumeTask at hpiece
    dsimp only at hpiece
    split at hpiece
    · obtain rfl := Option.some.inj hpiece
      exact h.clearSession.proceed_plain id (by simp)
    · exact absurd hpiece (by simp)
  | mfaStatus request ensured =>
    refine h.mfaAnswer (fun status hreply => ?_) ?_ ?_ hpiece
    · dsimp only at htimely
      rw [hreply] at htimely
      exact htimely request (by simp)
    · cases ensured <;> simp
    · cases ensured <;> simp
  | registration request =>
    refine h.mfaAnswer (fun status hreply => ?_) (by simp) (by simp) hpiece
    dsimp only at htimely
    rw [hreply] at htimely
    exact htimely request (by simp)
  | mfaStatusFinally ok =>
    obtain rfl := Option.some.inj hpiece
    have hcleared : Inv { c with mfaStatusCheck := none } :=
      ⟨⟨h.sets, h.shown⟩, h.epoch, h.checks⟩
    exact hcleared.proceed_plain id (by simp)
  | clearing request always => exact h.clearingAnswer hpiece
  | session user permissions =>
    refine h.sessionAnswer (fun shown codes hboth => ?_) (by simp)
      (h.clearSession.proceed_plain id (by simp)) hpiece
    dsimp only at htimely
    rw [hboth] at htimely
    exact ⟨htimely user (by simp), htimely permissions (by simp)⟩
  | sessionFinally =>
    obtain rfl := Option.some.inj hpiece
    have hcleared : Inv { c with sessionCheck := none } := ⟨⟨h.sets, h.shown⟩, h.epoch, h.checks⟩
    exact hcleared.proceed_plain id (by simp)
  | ensuring check =>
    exact h.outcome (h.clearSession.proceed_plain id (by simp)) hpiece
  | refreshSession user permissions =>
    refine h.sessionAnswer (fun shown codes hboth => ?_) (by simp) (h.proceed_plain id (by simp)) hpiece
    dsimp only at htimely
    rw [hboth] at htimely
    exact ⟨htimely user (by simp), htimely permissions (by simp)⟩
  | permissions request epoch => exact h.permissionsAnswer hmem hpiece
  | permissionsFinally ok =>
    unfold Client.resumeTask at hpiece
    dsimp only at hpiece
    have hcleared : Inv { c with permissionCheck := none } :=
      ⟨⟨h.sets, h.shown⟩, h.epoch, h.checks⟩
    split at hpiece
    · obtain rfl := Option.some.inj hpiece
      exact hcleared.proceed_plain id (by simp)
    · obtain rfl := Option.some.inj hpiece
      exact h.proceed_plain id (by simp)
  | settled ok => exact absurd hpiece (by simp [Client.resumeTask])

theorem Inv.step {event : Event User Mfa Code} (h : Inv c) (htimely : Timely c event)
    (hstep : step c event = some c') : Inv c' := by
  cases event with
  | call call => exact Option.some.inj hstep ▸ h.call call
  | respond request reply => exact h.respond hstep
  | resume id =>
    obtain ⟨task, hget, hpiece⟩ := Option.bind_eq_some_iff.1 hstep
    have hcarried : c.carried id = c.carriedBy task := by rw [Client.carried, hget]; rfl
    apply h.resumeTask (List.mem_of_getElem? hget) _ hpiece
    intro request hrequest
    exact htimely request (hcarried ▸ hrequest)

/-! ## Answers that were overtaken

The converse: whatever a task carries it shows, whether or not the session has been cleared
meanwhile.
-/

omit [DecidableEq Code] in
theorem issuedAt_of_reply {reply : Reply User Mfa Code} (h : c.reply request = some reply) :
    ∃ cleared, c.issuedAt request = some cleared := by
  obtain ⟨issued, hget, -⟩ := Option.bind_eq_some_iff.1 h
  exact ⟨issued.cleared, by rw [Client.issuedAt, hget]; rfl⟩

theorem issuedAt_of_carried (hcarried : request ∈ c.carriedBy task) :
    ∃ cleared, c.issuedAt request = some cleared := by
  unfold Client.carriedBy at hcarried
  have hboth : ∀ {user permissions : Nat} {found : User × List Code},
      c.both user permissions = some (some found) → request ∈ [user, permissions] →
        ∃ cleared, c.issuedAt request = some cleared := by
    intro user permissions found hfound hmem
    obtain ⟨huser, hpermissions⟩ := reply_of_both hfound
    rcases List.mem_pair.1 hmem with rfl | rfl
    · exact issuedAt_of_reply huser
    · exact issuedAt_of_reply hpermissions
  cases task with
  | login asked | verify asked =>
    dsimp only at hcarried
    split at hcarried
    · next user hreply =>
      obtain rfl := List.mem_singleton.1 hcarried
      exact issuedAt_of_reply hreply
    · simp at hcarried
  | mfaStatus asked _ | registration asked =>
    dsimp only at hcarried
    split at hcarried
    · next status hreply =>
      obtain rfl := List.mem_singleton.1 hcarried
      exact issuedAt_of_reply hreply
    · simp at hcarried
  | session user permissions | refreshSession user permissions =>
    dsimp only at hcarried
    split at hcarried
    · next found hfound => exact hboth hfound hcarried
    · simp at hcarried
  | _ => simp at hcarried

/-- Whatever a piece of code carries it does show. -/
theorem shown_of_carried (id : Nat) (hcarried : request ∈ c.carriedBy task) :
    ∃ c', c.resumeTask id task = some c' ∧
      (∃ write ∈ c'.writes, write.request = request ∧ write.cleared = c.cleared) ∧
      ∃ more, c'.requests = c.requests ++ more := by
  -- a completed login writes the user, whether or not it asks for permissions
  have hcomplete : ∀ user : User,
      (∃ write ∈ (c.completeLogin id request .authenticated (some user)).writes,
        write.request = request ∧ write.cleared = c.cleared) ∧
      ∃ more, (c.completeLogin id request .authenticated (some user)).requests = c.requests ++ more := by
    intro user
    unfold Client.completeLogin
    dsimp only
    unfold Client.refreshPermissions
    constructor
    · refine ⟨⟨.userState, request, c.cleared⟩, ?_, rfl, rfl⟩
      split <;> exact List.mem_append_right _ (List.mem_singleton_self _)
    · split
      · exact ⟨[], (List.append_nil _).symm⟩
      · exact ⟨[_], rfl⟩
  -- a session is shown by two writes, one for each of its requests
  have hsession : ∀ (userRequest permissionsRequest : Nat) (user : User) (codes : List Code) (next : Task),
      request ∈ [userRequest, permissionsRequest] →
      (∃ write ∈ ((c.showSession userRequest permissionsRequest user codes).proceed id next).writes,
        write.request = request ∧ write.cleared = c.cleared) := by
    intro userRequest permissionsRequest user codes next hmem
    rcases List.mem_pair.1 hmem with rfl | rfl
    · refine ⟨⟨.userState, request, c.cleared⟩, ?_, rfl, rfl⟩
      exact List.mem_append_left _ (List.mem_append_right _ (List.mem_singleton_self _))
    · refine ⟨⟨.permissionState, request, c.cleared⟩, ?_, rfl, rfl⟩
      exact List.mem_append_right _ (List.mem_singleton_self _)
  have hsame : c.requests = c.requests ++ [] := (List.append_nil _).symm
  unfold Client.carriedBy at hcarried
  unfold Client.resumeTask
  cases task with
  | login asked | verify asked =>
    dsimp only at hcarried ⊢
    split at hcarried
    · next user hreply =>
      obtain rfl := List.mem_singleton.1 hcarried
      rw [hreply]
      exact ⟨_, rfl, hcomplete user⟩
    · simp at hcarried
  | mfaStatus asked _ | registration asked =>
    dsimp only at hcarried ⊢
    split at hcarried
    · next status hreply =>
      obtain rfl := List.mem_singleton.1 hcarried
      rw [hreply]
      refine ⟨_, rfl, ⟨⟨.mfaStatusState, request, c.cleared⟩, ?_, rfl, rfl⟩, [], hsame⟩
      exact List.mem_append_right _ (List.mem_singleton_self _)
    · simp at hcarried
  | session userRequest permissionsRequest | refreshSession userRequest permissionsRequest =>
    dsimp only at hcarried ⊢
    split at hcarried
    · next found hboth =>
      rw [hboth]
      exact ⟨_, rfl, hsession _ _ _ _ _ hcarried, [], hsame⟩
    · simp at hcarried
  | _ => simp at hcarried

/-- **An answer that was overtaken is shown all the same.** -/
theorem stale_of_not_timely {event : Event User Mfa Code} (h : ¬ Timely c event) :
    ∃ c', step c event = some c' ∧ ¬ Fresh c' := by
  cases event with
  | resume id =>
    unfold Timely at h
    push Not at h
    obtain ⟨request, hcarried, hovertaken⟩ := h
    unfold Client.carried at hcarried
    cases hget : c.tasks[id]? with
    | none => simp [hget] at hcarried
    | some task =>
      rw [hget] at hcarried
      obtain ⟨c', hpiece, ⟨write, hwrite, hrequest, hcleared⟩, more, hrequests⟩ :=
        shown_of_carried id hcarried
      have hstep : step c (.resume id : Event User Mfa Code) = some c' := by
        show c.tasks[id]?.bind (c.resumeTask id) = some c'
        rw [hget, Option.bind_some, hpiece]
      refine ⟨c', hstep, fun hfresh => hovertaken ?_⟩
      have hissued := hfresh.sets write hwrite
      obtain ⟨cleared, hcleared'⟩ := issuedAt_of_carried hcarried
      obtain ⟨issued, hasked, rfl⟩ := Option.map_eq_some_iff.1 hcleared'
      have hlt : request < c.requests.length := (List.getElem?_eq_some_iff.1 hasked).1
      rw [hrequest, hcleared, Client.issuedAt, hrequests, List.getElem?_append_left hlt] at hissued
      exact hissued
  | call call => exact absurd trivial h
  | respond request reply => exact absurd trivial h

end Primitives

/-! ## Runs

Steps that show nothing stale keep the invariant, and the others break it for good.
-/

theorem Inv.new [DecidableEq Code] : Inv (Client.new : Client User Mfa Code) where
  sets write hwrite := absurd hwrite (by simp [Client.new])
  shown := Or.inl rfl
  epoch := rfl
  checks request epoch hmem := absurd hmem (by simp [Client.new])

/-- **No stale response revives a session** exactly when no response of a login, of the session, of
its refresh or of the second factors is handled after a `clearSession` that its request was issued
before. -/
theorem fresh_iff_timely [DecidableEq Code] (events : List (Event User Mfa Code)) :
    Throughout step Client.new events Fresh ↔ EveryStep step Client.new events Timely :=
  safe_iff_good Inv.new (fun _ h => h.toFresh)
    (fun _ _ _ h htimely hstep => h.step htimely hstep)
    (fun _ _ _ hovertaken => stale_of_not_timely hovertaken)

/-- The user saves something that refreshes the session, and logs out before the refresh is answered. -/
def logoutOverRefresh : List (Event String Unit String) :=
  [.call .ensureSession, .respond 0 (.user "ada"), .respond 1 (.permissions ["user:directory:read"]),
    .resume 0, .resume 0, .call .refreshSession, .call .logout, .respond 4 .done, .resume 2,
    .respond 2 (.user "ada"), .respond 3 (.permissions ["user:directory:read"]), .resume 1]

/-- The user and the permissions are back behind the logout. -/
theorem revived_by_refresh : ¬ Throughout step Client.new logoutOverRefresh Fresh := by
  intro hfresh
  have hend : (run step Client.new logoutOverRefresh).map
      (fun c => (c.userState, c.cleared, c.writes.getLast?, c.issuedAt 3)) =
      some (some "ada", 1, some ⟨.permissionState, 3, 1⟩, some 0) := by decide +kernel
  obtain ⟨c, hrun, hc⟩ := Option.map_eq_some_iff.1 hend
  simp only [Prod.mk.injEq] at hc
  obtain ⟨-, -, hlast, hissued⟩ := hc
  have hset := (hfresh _ c (List.prefix_refl _) hrun).sets _ (List.mem_of_getLast? hlast)
  rw [hissued] at hset
  simp at hset

end Frontend

end ArcAdmin
