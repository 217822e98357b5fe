import CopyTrade.Spec.IdentitySchema
import CopyTrade.Spec.CopyEngine
import CopyTrade.Sql.Client

/-!
# Admission

`auth.py`, the repository of `identity.py`, and the repository and the routes of
`sessions.py`, as programs on the identity tables.

The functions of `hashlib` are a parameter (`Crypto`). A request's header and cookie
values are ASCII, as HTTP has them.
-/

namespace CopyTrade

open Async (Prog)
open Identity
open Python (Text)
open Sql (withConnection transaction)

/-- `hash_api_token`, `hash_password` with its salt, and `verify_password`. -/
structure Crypto where
  hashApiToken : Text → Digest
  hashPassword : Text → List UInt8 → String
  verifyPassword : Text → String → Bool

/-- What a process draws from its surroundings: `uuid4()`, `secrets.token_urlsafe(32)`,
`secrets.token_bytes(16)` and `datetime.now(UTC)`. -/
structure Drawn where
  uuid4 : UUID
  tokenUrlsafe : Text
  tokenBytes : List UInt8
  utcNow : Timestamp

/-- An exception of the API: one of Python, or an `HTTPException`. -/
inductive ApiError where
  | python (e : PyException)
  | http (statusCode : ℕ) (detail : String)
  deriving DecidableEq, Repr

abbrev IdentityApi := Sql.Client identity Drawn ApiError

def adminRole : String := "admin"

/-- Where a principal was authenticated. -/
inductive PrincipalSource where
  | environment
  | database
  | session
  deriving DecidableEq, Repr

structure AuthenticatedPrincipal where
  userId : Option UUID
  credentialId : Option UUID
  roles : List String
  actorType : ActorType
  actorId : Option String
  source : PrincipalSource
  sessionId : Option UUID := none
  deriving DecidableEq

/-- A statement outside a transaction block. -/
def fetch (q : Query) : Prog IdentityApi (Answer q) := Sql.query (S := identity) q

/-- A statement of a transaction block. -/
def fetchIn (tx : ℕ) (c : Stmt) : Prog IdentityApi (Ret c) := Sql.run (S := identity) tx c

/-- `uuid4()` -/
def uuid4 : Prog IdentityApi UUID := (Prog.name (σ := IdentityApi)) >>= fun n => pure n.uuid4

/-- A draw of the process. -/
theorem obeys_uuid4 {L : Type} {P : Async.Protocol IdentityApi L} {l : L} {Q : L → UUID → Prop}
    {X : L → ApiError → Prop} (h : ∀ u, Q l u) : uuid4.Obeys P l Q X :=
  fun n => h n.uuid4

/-- `insert_audit_log` on a connection without a transaction block. -/
def insertAuditLogAlone (entry : AuditEntry AuditState) : Prog IdentityApi Unit := do
  let id ← uuid4
  fetch (.insertAuditLog id entry)

/-- `insert_audit_log` in a transaction block. -/
def insertAuditLog (tx : ℕ) (entry : AuditEntry AuditState) : Prog IdentityApi Unit := do
  let id ← uuid4
  fetchIn tx (.insertAuditLog id entry)

/-- `str` of a nullable text column. -/
def strColumn (value : Option String) : String := value.getD "None"

section

variable (crypto : Crypto)

/-! ## `identity.py` -/

def minAdminApiTokenLength : ℕ := 32

def isAdminApiTokenCandidate (token : Text) : Bool := token.length ≥ minAdminApiTokenLength

/-- `PostgresAdminCredentialRepository.authenticate_admin_token` -/
def authenticateAdminToken (token : Text) : Prog IdentityApi (Option AuthenticatedPrincipal) :=
  if !isAdminApiTokenCandidate token then pure none
  else
    withConnection do
      let row ← fetch (.selectAdminCredential adminApiCredentialType (crypto.hashApiToken token))
      match row with
      | none => pure none
      | some row =>
        if adminRole ∉ row.roles then pure none
        else do
          fetch (.updateCredentialLastUsed row.credentialId)
          pure (some {
            userId := some row.userId
            credentialId := some row.credentialId
            roles := row.roles
            actorType := .user
            actorId := some row.userId.str
            source := .database })

/-! ## `PostgresUserSessionRepository` -/

structure AuthenticatedSession where
  principal : AuthenticatedPrincipal
  email : String
  displayName : Option String
  expiresAt : Timestamp
  deriving DecidableEq

structure CreatedUserSession where
  sessionToken : Text
  csrfToken : Text
  authenticatedSession : AuthenticatedSession
  deriving DecidableEq

/-- The principal of a session. -/
def sessionPrincipal (userId sessionId : UUID) (roles : List String) : AuthenticatedPrincipal where
  userId := some userId
  credentialId := none
  roles := roles
  actorType := .user
  actorId := some userId.str
  source := .session
  sessionId := some sessionId

/-- The check of a request's CSRF token against the hash of its session. -/
def csrfPasses (csrfToken : Option Text) (requireCsrf : Bool) (csrfTokenHash : Digest) : Bool :=
  if requireCsrf then
    match csrfToken with
    | none => false
    | some csrfToken => crypto.hashApiToken csrfToken == csrfTokenHash
  else true

def authenticateSession (sessionToken : Text) (csrfToken : Option Text) (requireCsrf : Bool) :
    Prog IdentityApi (Option AuthenticatedSession) :=
  withConnection do
    let row ← fetch (.selectSession (crypto.hashApiToken sessionToken))
    match row with
    | none => pure none
    | some row =>
      if !csrfPasses crypto csrfToken requireCsrf row.csrfTokenHash then pure none
      else do
        fetch (.updateSessionLastSeen row.sessionId)
        pure (some {
          principal := sessionPrincipal row.userId row.sessionId row.roles
          email := strColumn row.email
          displayName := row.displayName
          expiresAt := row.expiresAt })

def revokeSession (sessionToken : Text) : Prog IdentityApi Unit :=
  withConnection do
    let row ← fetch (.revokeSession (crypto.hashApiToken sessionToken))
    match row with
    | none => pure ()
    | some (id, userId) =>
      insertAuditLogAlone {
        actorType := .user
        actorId := some userId.str
        action := "auth.logout"
        entityType := "user_session"
        entityId := some id
        beforeState := none
        afterState := some .revoked }

structure LoginRequest where
  email : String
  password : Text

def loginFailedError : ApiError := .python ⟨"LoginFailedError"⟩

def recordFailedLogin (email : String) (userId : Option UUID) : Prog IdentityApi Unit :=
  insertAuditLogAlone {
    actorType := .system
    actorId := none
    action := "auth.login.failed"
    entityType := "auth_login"
    entityId := userId
    beforeState := none
    afterState := none
    metadata := [("email", email), ("reason", "invalid_credentials")] }

/-- The transaction of a login that succeeds. -/
def createSession (email : String) (userId sessionId passwordCredentialId : UUID)
    (roles : List String) (sessionToken csrfToken : Text) (expiresAt : Timestamp) :
    Prog IdentityApi Unit :=
  transaction fun tx => do
    fetchIn tx (.insertSession sessionId userId (crypto.hashApiToken sessionToken)
      (crypto.hashApiToken csrfToken) expiresAt)
    fetchIn tx (.updatePasswordLastUsed passwordCredentialId)
    insertAuditLog tx {
      actorType := .user
      actorId := some userId.str
      action := "auth.login.succeeded"
      entityType := "user_session"
      entityId := some sessionId
      beforeState := none
      afterState := some (.session userId roles)
      metadata := [("email", email)] }

def login (sessionTtlMinutes : ℤ) (payload : LoginRequest) : Prog IdentityApi CreatedUserSession :=
  withConnection do
    let row ← fetch (.selectPasswordLogin payload.email)
    match row with
    | none => do
      recordFailedLogin payload.email none
      Prog.fail (σ := IdentityApi) loginFailedError
    | some row =>
      if !crypto.verifyPassword payload.password row.passwordHash then do
        recordFailedLogin payload.email (some row.userId)
        Prog.fail (σ := IdentityApi) loginFailedError
      else do
        let session ← Prog.name (σ := IdentityApi)
        let csrf ← Prog.name (σ := IdentityApi)
        let sessionId ← uuid4
        let expiresAt := csrf.utcNow + sessionTtlMinutes * 60000000
        createSession crypto payload.email row.userId sessionId row.passwordCredentialId row.roles
          session.tokenUrlsafe csrf.tokenUrlsafe expiresAt
        pure {
          sessionToken := session.tokenUrlsafe
          csrfToken := csrf.tokenUrlsafe
          authenticatedSession := {
            principal := sessionPrincipal row.userId sessionId row.roles
            email := strColumn row.email
            displayName := row.displayName
            expiresAt := expiresAt } }

def unauthorized : ApiError := .http 401 "unauthorized"

/-- `POST /auth/logout`, as far as the database sees it. -/
def logout (sessionToken csrfToken : Option Text) : Prog IdentityApi Unit :=
  match sessionToken with
  | none => pure ()
  | some sessionToken => do
    let session ← authenticateSession crypto sessionToken csrfToken true
    match session with
    | none => Prog.fail (σ := IdentityApi) unauthorized
    | some _ => revokeSession crypto sessionToken

end

/-! ## `auth.py` -/

/-- The settings that the admission reads. -/
structure Settings where
  env : Text
  adminApiToken : Option Text
  allowEnvironmentAdminToken : Bool := false

/-- What the admission reads of a request. -/
structure AdmissionRequest where
  method : Text
  token : Option Text := none
  sessionToken : Option Text := none
  csrfToken : Option Text := none
  method_ascii : Python.IsAscii method
  token_ascii : ∀ t ∈ token, Python.IsAscii t
  sessionToken_ascii : ∀ t ∈ sessionToken, Python.IsAscii t
  csrfToken_ascii : ∀ t ∈ csrfToken, Python.IsAscii t

/-- The repositories in `app.state` that the admission asks for. -/
structure AppState where
  adminCredentialRepository : Option (Text → Prog IdentityApi (Option AuthenticatedPrincipal))
  sessionRepository :
    Option (Text → Option Text → Bool → Prog IdentityApi (Option AuthenticatedSession))

/-- The state that `create_app` sets by default. -/
def appState (crypto : Crypto) : AppState where
  adminCredentialRepository := some (authenticateAdminToken crypto)
  sessionRepository := some (authenticateSession crypto)

def environmentAdminTokenEnvs : List Text :=
  ["dev", "development", "local", "test"].map Python.text

def csrfProtectedMethods : List Text := ["POST", "PUT", "PATCH", "DELETE"].map Python.text

/-- `hmac.compare_digest` of two `str`, which must be ASCII. -/
def compareDigest (a b : Text) : Except PyException Bool :=
  if Python.IsAscii a ∧ Python.IsAscii b then .ok (a == b) else .error ⟨"TypeError"⟩

def environmentAdminTokenMatches (settings : Settings) (token : Text) : Except PyException Bool :=
  if !settings.allowEnvironmentAdminToken then .ok false
  else if Python.lower settings.env ∉ environmentAdminTokenEnvs then .ok false
  else
    match settings.adminApiToken with
    | none => .ok false
    | some adminApiToken =>
      if adminApiToken = [] then .ok false else compareDigest token adminApiToken

def environmentAdminPrincipal : AuthenticatedPrincipal where
  userId := none
  credentialId := none
  roles := [adminRole]
  actorType := .adminApi
  actorId := none
  source := .environment

/-- A computation that may raise an exception of Python. -/
def raising {α : Type} (a : Except PyException α) : Prog IdentityApi α :=
  Prog.ofExcept (σ := IdentityApi) (a.mapError .python)

/-- `require_admin_token`, from the session cookie on. -/
def requireSession (state : AppState) (request : AdmissionRequest) :
    Prog IdentityApi AuthenticatedPrincipal :=
  match request.sessionToken, state.sessionRepository with
  | some sessionToken, some authenticate => do
    let session ← (authenticate sessionToken request.csrfToken
      (decide (Python.upper request.method ∈ csrfProtectedMethods))).caught
    match session with
    | .error _ => Prog.fail (σ := IdentityApi) (.http 503 "session backend is unavailable")
    | .ok none => Prog.fail (σ := IdentityApi) unauthorized
    | .ok (some session) =>
      if adminRole ∈ session.principal.roles then pure session.principal
      else Prog.fail (σ := IdentityApi) unauthorized
  | _, _ => Prog.fail (σ := IdentityApi) unauthorized

/-- `require_admin_token`, from the environment token on. -/
def requireEnvironmentToken (settings : Settings) (state : AppState) (request : AdmissionRequest)
    (token : Text) : Prog IdentityApi AuthenticatedPrincipal := do
  let matched ← raising (environmentAdminTokenMatches settings token)
  if matched then pure environmentAdminPrincipal
  else if state.adminCredentialRepository.isNone && settings.adminApiToken.all (· == []) then
    Prog.fail (σ := IdentityApi) (.http 503 "admin API is not configured")
  else requireSession state request

def requireAdminToken (settings : Settings) (state : AppState) (request : AdmissionRequest) :
    Prog IdentityApi AuthenticatedPrincipal :=
  match request.token with
  | none => requireSession state request
  | some token =>
    match state.adminCredentialRepository with
    | none => requireEnvironmentToken settings state request token
    | some authenticate => do
      let principal ← (authenticate token).caught
      match principal with
      | .error _ => do
        let matched ← raising (environmentAdminTokenMatches settings token)
        if matched then pure environmentAdminPrincipal
        else Prog.fail (σ := IdentityApi) (.http 503 "admin identity backend is unavailable")
      | .ok none => requireEnvironmentToken settings state request token
      | .ok (some principal) =>
        if adminRole ∈ principal.roles then pure principal
        else requireEnvironmentToken settings state request token

end CopyTrade
