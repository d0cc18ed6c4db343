import ArcAdmin.Services.Login

/-!
# Session authentication

`auth.rs`: who makes a request, from its cookies and headers, and the typed permission extractors.
The name of a cookie depends on the configuration only, so a request is represented by the values.
-/

namespace ArcAdmin

open ReadCommitted

/-- What a request carries besides its path and body. `safe` says that the method is `GET`, `HEAD`
or `OPTIONS`. -/
structure Parts where
  safe : Bool
  sessionCookie : Option String
  csrfCookie : Option String
  csrfHeader : Option String
  stepUpHeader : Option String

namespace SessionAuth

/-- A token of the right length. -/
def token (value : Option String) : Option String := value.filter fun value => byteLen value == 64

/-- A request that may change something has to bring the token twice, in a header and in a
cookie, and it has to be that of the session. -/
def validateCsrf (env : External) (parts : Parts) (expectedHash : String) : Db Unit :=
  Prog.whenever (!parts.safe) do
    let headerToken ← Prog.okOr (token parts.csrfHeader) .csrfInvalid
    let cookieToken ← Prog.okOr (token parts.csrfCookie) .csrfInvalid
    Prog.reject (headerToken != cookieToken || env.tokenHash headerToken != expectedHash)
      .csrfInvalid

/-- The actor of a request. The session is found by the hash of its cookie, and `auth_context`
decides whether it is valid; the context carries what the request is allowed to do. -/
def authenticate (env : External) (parts : Parts) : Db ActorContext := do
  let sessionToken ← Prog.okOr (token parts.sessionCookie) .unauthorized
  let context ← Repositories.AuthSessions.authContext (env.tokenHash sessionToken)
  let context ← Prog.okOr context .unauthorized
  validateCsrf env parts context.csrfTokenHash
  let dataScope ← Prog.okOr (DataScope.fromDatabase context.dataScope)
    (.internal "认证上下文包含无效的数据范围")
  return {
    sessionId := context.sessionId
    userId := context.userId
    organizationId := context.organizationId
    departmentId := context.departmentId
    dataScope
    permissionCodes := context.permissionCodes }

/-- The extractor `RequirePermission<P>` with `P::CODE = code`. -/
def requirePermission (env : External) (parts : Parts) (code : String) : Db ActorContext := do
  let actor ← authenticate env parts
  Prog.reject (!actor.hasPermission code) (.forbidden ("缺少权限: " ++ code))
  return actor

/-- `RequirePermission::require`, inside a handler. -/
def require (actor : ActorContext) (code : String) : Db Unit :=
  Prog.reject (!actor.hasPermission code) (.forbidden ("缺少权限：" ++ code))

end SessionAuth

end ArcAdmin
