import Mathlib.Data.Finset.Dedup
import Mathlib.Data.Finset.Empty
import Mathlib.Tactic.Common
import ArcAdmin.Runs

/-!
# The session of the client

`AuthService`: what the client shows of a session, the calls that ask the server for it, and what runs
when the answers come. A call runs up to its first `await`; every piece behind an `await`, a `then`, a
`catch` or a `finally` is a step of its own that may come at any time once what it waits for is settled.

* **`Client`** — the fields of the service, its requests and its promises;
* **`call`**, **`respond`**, **`resume`** — a call, an answer, the next piece of a promise.
-/

namespace ArcAdmin

namespace Frontend

variable {User Mfa Code : Type}

/-- `LoginStatusSchema`. -/
inductive LoginStatus where
  | authenticated
  | mfaRequired
  | mfaEnrollmentRequired
  deriving DecidableEq

/-- What the service waits for: the requests of the API, and the two dialogues of the browser. -/
inductive Endpoint where
  | login
  | verifyMfaTotp
  | verifyMfaRecoveryCode
  | startMfaPasskeyAuthentication
  | startAuthentication
  | finishMfaPasskeyAuthentication
  | getCurrentUserMfaStatus
  | startCurrentUserPasskeyRegistration
  | startRegistration
  | finishCurrentUserPasskeyRegistration
  | revokeCurrentUserPasskey
  | regenerateCurrentUserRecoveryCodes
  | getCurrentUser
  | getCurrentUserPermissions
  | changeCurrentUserPassword
  | logout
  deriving DecidableEq

/-- What comes back. A body that nothing of the session is taken from is `done`. -/
inductive Reply (User Mfa Code : Type) where
  | login (status : LoginStatus) (user : Option User)
  | user (user : User)
  | permissions (codes : List Code)
  | mfaStatus (status : Mfa)
  | done
  | failed (unauthorized : Bool)
  deriving DecidableEq

/-- The replies of an endpoint. -/
def Endpoint.answers : Endpoint → Reply User Mfa Code → Bool
  | .startAuthentication, .failed unauthorized => !unauthorized
  | .startRegistration, .failed unauthorized => !unauthorized
  | _, .failed _ => true
  | .login, .login _ _ => true
  | .verifyMfaTotp, .login _ _ => true
  | .verifyMfaRecoveryCode, .login _ _ => true
  | .finishMfaPasskeyAuthentication, .login _ _ => true
  | .getCurrentUserMfaStatus, .mfaStatus _ => true
  | .finishCurrentUserPasskeyRegistration, .mfaStatus _ => true
  | .getCurrentUser, .user _ => true
  | .getCurrentUserPermissions, .permissions _ => true
  | .startMfaPasskeyAuthentication, .done => true
  | .startAuthentication, .done => true
  | .startCurrentUserPasskeyRegistration, .done => true
  | .startRegistration, .done => true
  | .revokeCurrentUserPasskey, .done => true
  | .regenerateCurrentUserRecoveryCodes, .done => true
  | .changeCurrentUserPassword, .done => true
  | .logout, .done => true
  | _, _ => false

/-- A request, how often the session had been cleared when it was issued, and what came back. -/
structure Issued (User Mfa Code : Type) where
  endpoint : Endpoint
  cleared : Nat
  reply : Option (Reply User Mfa Code)

/-- A promise: what it waits for and which piece of code comes next. -/
inductive Task where
  /-- `login` -/
  | login (request : Nat)
  /-- `verifyTotp`, `verifyRecoveryCode`, the end of `authenticateWithPasskey` -/
  | verify (request : Nat)
  | passkeyChallenge (request : Nat)
  | passkeyCredential (request : Nat)
  /-- `completeLogin` behind `loadPermissions` -/
  | completing (check : Nat)
  /-- `logout` in the `catch` of `completeLogin` -/
  | revoking (request : Nat)
  /-- `getMfaStatus`, with the `finally` of `ensureMfaStatus` behind it or without -/
  | mfaStatus (request : Nat) (ensured : Bool)
  | mfaStatusFinally (ok : Bool)
  | registrationChallenge (request : Nat)
  | registrationCredential (request : Nat)
  | registration (request : Nat)
  /-- `clearSession` behind a request: when it has succeeded, or always -/
  | clearing (request : Nat) (always : Bool)
  /-- `ensureSession` without a user -/
  | session (user permissions : Nat)
  | sessionFinally
  /-- `ensureSession` with a user, behind `refreshPermissions` -/
  | ensuring (check : Nat)
  | refreshSession (user permissions : Nat)
  /-- `refreshPermissions` -/
  | permissions (request epoch : Nat)
  | permissionsFinally (ok : Bool)
  | settled (ok : Bool)
  deriving DecidableEq

/-- What is shown. -/
inductive Field where
  | userState
  | permissionState
  | mfaStatusState
  deriving DecidableEq

/-- A field was set from the reply to a request, the session having been cleared so often. -/
structure Write where
  field : Field
  request : Nat
  cleared : Nat
  deriving DecidableEq

/-- The service. `cleared` and `writes` record what has happened and are read by no code. -/
structure Client (User Mfa Code : Type) where
  userState : Option User
  permissionState : Finset Code
  mfaStatusState : Option Mfa
  sessionCheck : Option Nat
  permissionCheck : Option Nat
  permissionEpoch : Nat
  mfaStatusCheck : Option Nat
  requests : List (Issued User Mfa Code)
  tasks : List Task
  cleared : Nat
  writes : List Write

namespace Client

def new : Client User Mfa Code where
  userState := none
  permissionState := ∅
  mfaStatusState := none
  sessionCheck := none
  permissionCheck := none
  permissionEpoch := 0
  mfaStatusCheck := none
  requests := []
  tasks := []
  cleared := 0
  writes := []

variable (c : Client User Mfa Code)

/-! ## Requests and promises

Requests and promises are numbered in the order in which they are made. A request is never
forgotten, so what it was answered with can be looked up by whatever waits for it.
-/

/-- `api.invoke`. -/
def invoke (endpoint : Endpoint) : Client User Mfa Code × Nat :=
  ({ c with requests := c.requests ++ [⟨endpoint, c.cleared, none⟩] }, c.requests.length)

/-- A new promise. -/
def start (task : Task) : Client User Mfa Code × Nat :=
  ({ c with tasks := c.tasks ++ [task] }, c.tasks.length)

def proceed (id : Nat) (task : Task) : Client User Mfa Code :=
  { c with tasks := c.tasks.set id task }

def reply (request : Nat) : Option (Reply User Mfa Code) := c.requests[request]?.bind Issued.reply

/-- How a promise was settled. -/
def outcome (id : Nat) : Option Bool :=
  match c.tasks[id]? with
  | some (.settled ok) => some ok
  | _ => none

/-! ## What is shown

Each setter records which request the value comes from, and how often the session had been cleared
when it was written.
-/

def setUser (request : Nat) (user : User) : Client User Mfa Code :=
  { c with
    userState := some user
    writes := c.writes ++ [⟨.userState, request, c.cleared⟩] }

/-- `permissionState.set(new Set(codes))`. -/
def setPermissions [DecidableEq Code] (request : Nat) (codes : List Code) : Client User Mfa Code :=
  { c with
    permissionState := codes.toFinset
    writes := c.writes ++ [⟨.permissionState, request, c.cleared⟩] }

def setMfaStatus (request : Nat) (status : Mfa) : Client User Mfa Code :=
  { c with
    mfaStatusState := some status
    writes := c.writes ++ [⟨.mfaStatusState, request, c.cleared⟩] }

def clearSession : Client User Mfa Code :=
  { c with
    permissionEpoch := c.permissionEpoch + 1
    permissionCheck := none
    userState := none
    permissionState := ∅
    mfaStatusState := none
    mfaStatusCheck := none
    cleared := c.cleared + 1 }

def handleUnauthorized : Client User Mfa Code := c.clearSession

/-! ## Calls

A call runs until its first `await` in one step; no answer can arrive in between.
-/

/-- A call that issues a request and waits for it. -/
def await (endpoint : Endpoint) (task : Nat → Task) : Client User Mfa Code × Nat :=
  let (c, request) := c.invoke endpoint
  c.start (task request)

/-- `refreshPermissions` and `loadPermissions`. -/
def refreshPermissions : Client User Mfa Code × Nat :=
  match c.permissionCheck with
  | some check => (c, check)
  | none =>
    let epoch := c.permissionEpoch
    let (c, check) := c.await .getCurrentUserPermissions (.permissions · epoch)
    ({ c with permissionCheck := some check }, check)

def login : Client User Mfa Code := (c.await .login .login).1

def verifyTotp : Client User Mfa Code := (c.await .verifyMfaTotp .verify).1

def verifyRecoveryCode : Client User Mfa Code := (c.await .verifyMfaRecoveryCode .verify).1

def authenticateWithPasskey : Client User Mfa Code :=
  (c.await .startMfaPasskeyAuthentication .passkeyChallenge).1

def getMfaStatus : Client User Mfa Code :=
  (c.await .getCurrentUserMfaStatus (.mfaStatus · false)).1

def ensureMfaStatus : Client User Mfa Code :=
  if c.mfaStatusState.isSome then c
  else if c.mfaStatusCheck.isSome then c
  else
    let (c, check) := c.await .getCurrentUserMfaStatus (.mfaStatus · true)
    { c with mfaStatusCheck := some check }

def registerPasskey : Client User Mfa Code :=
  (c.await .startCurrentUserPasskeyRegistration .registrationChallenge).1

def revokePasskey : Client User Mfa Code :=
  (c.await .revokeCurrentUserPasskey (.clearing · false)).1

def regenerateRecoveryCodes : Client User Mfa Code :=
  (c.await .regenerateCurrentUserRecoveryCodes (.clearing · false)).1

def ensureSession : Client User Mfa Code :=
  if c.userState.isSome then
    let (c, check) := c.refreshPermissions
    (c.start (.ensuring check)).1
  else if c.sessionCheck.isSome then c
  else
    let (c, user) := c.invoke .getCurrentUser
    let (c, check) := c.await .getCurrentUserPermissions (.session user)
    { c with sessionCheck := some check }

def changePassword : Client User Mfa Code :=
  (c.await .changeCurrentUserPassword (.clearing · false)).1

def refreshSession : Client User Mfa Code :=
  let (c, user) := c.invoke .getCurrentUser
  (c.await .getCurrentUserPermissions (.refreshSession user)).1

def logout : Client User Mfa Code := (c.await .logout (.clearing · true)).1

/-! ## What comes behind the answers

What runs when a promise is settled. It may come long after the answer, and after other calls.
-/

section Resume

variable [DecidableEq Code] (id : Nat)

/-- `completeLogin` up to `loadPermissions`. -/
def completeLogin (request : Nat) (status : LoginStatus) (user : Option User) :
    Client User Mfa Code :=
  match status, user with
  | .authenticated, some user =>
    let (c, check) := (c.setUser request user).refreshPermissions
    c.proceed id (.completing check)
  | _, _ => c.proceed id (.settled false)

/-- `await` on a request whose body is not read: the next request, or the failure. -/
def awaitThen (request : Nat) (endpoint : Endpoint) (task : Nat → Task) :
    Option (Client User Mfa Code) :=
  match c.reply request with
  | some .done =>
    let (c, request) := c.invoke endpoint
    some (c.proceed id (task request))
  | some (.failed _) => some (c.proceed id (.settled false))
  | _ => none

/-- `Promise.all` of the user and the permissions: both have come, or one of them has failed. -/
def both (user permissions : Nat) : Option (Option (User × List Code)) :=
  match c.reply user, c.reply permissions with
  | some (.user user), some (.permissions codes) => some (some (user, codes))
  | some (.failed _), _ => some none
  | _, some (.failed _) => some none
  | _, _ => none

/-- `userState.set(user)` and `permissionState.set(new Set(permissions.codes))`. -/
def showSession (userRequest permissionsRequest : Nat) (user : User) (codes : List Code) :
    Client User Mfa Code :=
  (c.setUser userRequest user).setPermissions permissionsRequest codes

/-- The piece of code behind what the promise waits for; `none` while it waits. -/
def resumeTask : Task → Option (Client User Mfa Code)
  | .login request =>
    match c.reply request with
    | some (.login status user) =>
      if status = .authenticated then some (c.completeLogin id request status user)
      else some (c.proceed id (.settled true))
    | some (.failed _) => some (c.proceed id (.settled false))
    | _ => none
  | .verify request =>
    match c.reply request with
    | some (.login status user) => some (c.completeLogin id request status user)
    | some (.failed _) => some (c.proceed id (.settled false))
    | _ => none
  | .passkeyChallenge request => c.awaitThen id request .startAuthentication .passkeyCredential
  | .passkeyCredential request => c.awaitThen id request .finishMfaPasskeyAuthentication .verify
  | .completing check =>
    match c.outcome check with
    | some true => some (c.proceed id (.settled true))
    | some false =>
      let (c, request) := c.invoke .logout
      some (c.proceed id (.revoking request))
    | none => none
  | .revoking request =>
    match c.reply request with
    | some _ => some (c.clearSession.proceed id (.settled false))
    | none => none
  | .mfaStatus request ensured =>
    match c.reply request with
    | some (.mfaStatus status) =>
      some ((c.setMfaStatus request status).proceed id
        (if ensured then .mfaStatusFinally true else .settled true))
    | some (.failed _) =>
      some (c.proceed id (if ensured then .mfaStatusFinally false else .settled false))
    | _ => none
  | .mfaStatusFinally ok => some ({ c with mfaStatusCheck := none }.proceed id (.settled ok))
  | .registrationChallenge request => c.awaitThen id request .startRegistration .registrationCredential
  | .registrationCredential request =>
    c.awaitThen id request .finishCurrentUserPasskeyRegistration .registration
  | .registration request =>
    match c.reply request with
    | some (.mfaStatus status) => some ((c.setMfaStatus request status).proceed id (.settled true))
    | some (.failed _) => some (c.proceed id (.settled false))
    | _ => none
  | .clearing request always =>
    match c.reply request with
    | some .done => some (c.clearSession.proceed id (.settled true))
    | some (.failed _) =>
      if always then some (c.clearSession.proceed id (.settled false))
      else some (c.proceed id (.settled false))
    | _ => none
  | .session user permissions =>
    match c.both user permissions with
    | some (some (shown, codes)) =>
      some ((c.showSession user permissions shown codes).proceed id .sessionFinally)
    | some none => some (c.clearSession.proceed id .sessionFinally)
    | none => none
  | .sessionFinally => some ({ c with sessionCheck := none }.proceed id (.settled true))
  | .ensuring check =>
    match c.outcome check with
    | some true => some (c.proceed id (.settled true))
    | some false => some (c.clearSession.proceed id (.settled true))
    | none => none
  | .refreshSession user permissions =>
    match c.both user permissions with
    | some (some (shown, codes)) =>
      some ((c.showSession user permissions shown codes).proceed id (.settled true))
    | some none => some (c.proceed id (.settled false))
    | none => none
  | .permissions request epoch =>
    match c.reply request with
    | some (.permissions codes) =>
      -- an answer from before the latest `clearSession` is dropped here, and only here
      if epoch = c.permissionEpoch then
        some ((c.setPermissions request codes).proceed id (.permissionsFinally true))
      else some (c.proceed id (.permissionsFinally true))
    | some (.failed _) => some (c.proceed id (.permissionsFinally false))
    | _ => none
  | .permissionsFinally ok =>
    if c.permissionCheck = some id then
      some ({ c with permissionCheck := none }.proceed id (.settled ok))
    else some (c.proceed id (.settled ok))
  | .settled _ => none

def resume : Option (Client User Mfa Code) := c.tasks[id]?.bind (c.resumeTask id)

end Resume

/-- An answer arrives. The interceptor sees the status 401 before the service does. -/
def respond (request : Nat) (reply : Reply User Mfa Code) : Option (Client User Mfa Code) :=
  match c.requests[request]? with
  | some issued =>
    if issued.reply.isNone ∧ issued.endpoint.answers reply = true then
      let answered : Client User Mfa Code :=
        { c with requests := c.requests.set request { issued with reply := some reply } }
      match reply with
      | .failed true => some answered.handleUnauthorized
      | _ => some answered
    else none
  | none => none

end Client

/-- The calls of the service that have to do with its state. -/
inductive Call where
  | login
  | verifyTotp
  | verifyRecoveryCode
  | authenticateWithPasskey
  | getMfaStatus
  | ensureMfaStatus
  | registerPasskey
  | revokePasskey
  | regenerateRecoveryCodes
  | ensureSession
  | changePassword
  | refreshSession
  | logout
  | handleUnauthorized
  | refreshPermissions
  deriving DecidableEq

def Client.call (c : Client User Mfa Code) : Call → Client User Mfa Code
  | .login => c.login
  | .verifyTotp => c.verifyTotp
  | .verifyRecoveryCode => c.verifyRecoveryCode
  | .authenticateWithPasskey => c.authenticateWithPasskey
  | .getMfaStatus => c.getMfaStatus
  | .ensureMfaStatus => c.ensureMfaStatus
  | .registerPasskey => c.registerPasskey
  | .revokePasskey => c.revokePasskey
  | .regenerateRecoveryCodes => c.regenerateRecoveryCodes
  | .ensureSession => c.ensureSession
  | .changePassword => c.changePassword
  | .refreshSession => c.refreshSession
  | .logout => c.logout
  | .handleUnauthorized => c.handleUnauthorized
  | .refreshPermissions => c.refreshPermissions.1

/-- What may happen next. -/
inductive Event (User Mfa Code : Type) where
  | call (call : Call)
  | respond (request : Nat) (reply : Reply User Mfa Code)
  | resume (id : Nat)

/-- **A step of the client.** -/
def step [DecidableEq Code] (c : Client User Mfa Code) :
    Event User Mfa Code → Option (Client User Mfa Code)
  | .call call => some (c.call call)
  | .respond request reply => c.respond request reply
  | .resume id => c.resume id

end Frontend

end ArcAdmin
