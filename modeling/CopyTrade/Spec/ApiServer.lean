import CopyTrade.Spec.AdminApi

/-!
# The routes of the API

What a request does from its admission to its response: the routes of `sessions.py`, and the
admin routes behind `require_admin_token`, on the identity tables. A payload that fails its
validation is no request here.

* `guarded`: a route that takes its principal from `require_admin_token`.
* `ApiRequest.route`, `ApiRequest.program`: a request of any of the routes.
-/

namespace CopyTrade

open Async (Prog)
open Identity
open Python (Text)

/-! ## The routes of `sessions.py` -/

structure SessionResponse where
  authenticated : Bool := true
  userId : UUID
  email : String
  displayName : Option String
  roles : List String
  expiresAt : Timestamp
  deriving DecidableEq

structure LoginResponse extends SessionResponse where
  csrfToken : Text
  deriving DecidableEq

def requireUserId (principal : AuthenticatedPrincipal) : Prog IdentityApi UUID :=
  match principal.userId with
  | none => Prog.fail (σ := IdentityApi) AdminCredentials.runtimeError
  | some userId => pure userId

def sessionResponse (session : AuthenticatedSession) : Prog IdentityApi SessionResponse := do
  let userId ← requireUserId session.principal
  pure {
    userId := userId
    email := session.email
    displayName := session.displayName
    roles := session.principal.roles
    expiresAt := session.expiresAt }

def loginResponse (created : CreatedUserSession) : Prog IdentityApi LoginResponse := do
  let response ← sessionResponse created.authenticatedSession
  pure { response with csrfToken := created.csrfToken }

namespace Sessions

/-- `POST /auth/login` -/
def login (crypto : Crypto) (sessionTtlMinutes : ℤ) (payload : LoginRequest) :
    Prog IdentityApi LoginResponse := do
  let created ← (CopyTrade.login crypto sessionTtlMinutes payload).tryExcept fun e =>
    Prog.fail (σ := IdentityApi) (if e = loginFailedError then .http 401 "invalid credentials" else e)
  loginResponse created

/-- `GET /auth/session` -/
def getSession (crypto : Crypto) (sessionToken : Option Text) : Prog IdentityApi SessionResponse :=
  match sessionToken with
  | none => Prog.fail (σ := IdentityApi) unauthorized
  | some sessionToken => do
    let session ← authenticateSession crypto sessionToken none false
    match session with
    | none => Prog.fail (σ := IdentityApi) unauthorized
    | some session => sessionResponse session

end Sessions

/-! ## The admin routes -/

namespace CopyRelationships.Router

/-- The `except` clause of both routes. -/
def relationshipHttpError (e : ApiError) : ApiError :=
  if e = .python duplicateCopyRelationshipError then
    .http 409 "active copy relationship already exists"
  else e

def createCopyRelationship (payload : CopyRelationshipCreate) (principal : AuthenticatedPrincipal) :
    Prog IdentityApi CopyRelationshipRow :=
  (CopyRelationships.create payload principal).tryExcept fun e =>
    Prog.fail (σ := IdentityApi) (relationshipHttpError e)

def updateCopyRelationship (relationshipId : UUID) (payload : CopyRelationshipUpdate)
    (principal : AuthenticatedPrincipal) : Prog IdentityApi CopyRelationshipRow := do
  let record ← (CopyRelationships.update relationshipId payload principal).tryExcept fun e =>
    Prog.fail (σ := IdentityApi) (relationshipHttpError e)
  match record with
  | none => Prog.fail (σ := IdentityApi) (.http 404 "copy relationship not found")
  | some record => pure record

end CopyRelationships.Router

/-- What is behind `require_admin_token`. -/
inductive GuardedOperation where
  | admin (operation : AdminOperation)
  | createCopyRelationship (payload : CopyRelationshipCreate)
  | updateCopyRelationship (relationshipId : UUID) (payload : CopyRelationshipUpdate)

inductive ApiResponse where
  | admin (response : AdminResponse)
  | copyRelationship (record : CopyRelationshipRow)
  | login (response : LoginResponse)
  | session (response : SessionResponse)
  | loggedOut
  deriving DecidableEq

def GuardedOperation.handle (crypto : Crypto) (principal : AuthenticatedPrincipal) :
    GuardedOperation → Prog IdentityApi ApiResponse
  | .admin operation => do
    let response ← CopyTrade.handle crypto principal operation
    pure (.admin response)
  | .createCopyRelationship payload => do
    let record ← CopyRelationships.Router.createCopyRelationship payload principal
    pure (.copyRelationship record)
  | .updateCopyRelationship relationshipId payload => do
    let record ← CopyRelationships.Router.updateCopyRelationship relationshipId payload principal
    pure (.copyRelationship record)

/-- `Depends(require_admin_token)`: the route runs for the principal that is admitted. -/
def guarded (crypto : Crypto) (settings : Settings) (request : AdmissionRequest)
    (operation : GuardedOperation) : Prog IdentityApi ApiResponse := do
  let principal ← requireAdminToken settings (appState crypto) request
  operation.handle crypto principal

inductive ApiRequest where
  | login (payload : LoginRequest)
  | session (sessionToken : Option Text)
  | logout (sessionToken csrfToken : Option Text)
  | guarded (request : AdmissionRequest) (operation : GuardedOperation)

section

variable (crypto : Crypto) (settings : Settings) (sessionTtlMinutes : ℤ)

def ApiRequest.route : ApiRequest → Prog IdentityApi ApiResponse
  | .login payload => do
    let response ← Sessions.login crypto sessionTtlMinutes payload
    pure (.login response)
  | .session sessionToken => do
    let response ← Sessions.getSession crypto sessionToken
    pure (.session response)
  | .logout sessionToken csrfToken => do
    CopyTrade.logout crypto sessionToken csrfToken
    pure .loggedOut
  | .guarded request operation => CopyTrade.guarded crypto settings request operation

/-- The request, whatever becomes of its response. -/
def ApiRequest.program (request : ApiRequest) : Prog IdentityApi Unit := do
  let _ ← request.route crypto settings sessionTtlMinutes
  pure ()

end

end CopyTrade
