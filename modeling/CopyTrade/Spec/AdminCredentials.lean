import CopyTrade.Spec.Auth

/-!
# Admin credentials

`PostgresAdminCredentialManagementRepository` and the router of `admin_credentials.py`, as
programs on the identity tables. A `return` in a transaction block commits it.
-/

namespace CopyTrade

open Async (Prog)
open Identity
open Python (Text)
open Sql (withConnection transaction)

namespace AdminCredentials

def tokenPrefixLength : ℕ := 8

/-- `email` is as `normalize_email` leaves it. -/
structure AdminCredentialCreate where
  email : String
  displayName : Option String := none
  password : Option Text := none
  email_valid : '@' ∈ email.toList ∧ email.toList.head? ≠ some '@' ∧ email.toList.getLast? ≠ some '@'
  displayName_length : ∀ s ∈ displayName, 1 ≤ s.length ∧ s.length ≤ 128
  password_length : ∀ p ∈ password, 12 ≤ p.length ∧ p.length ≤ 256

structure CreatedAdminCredential where
  record : AdminCredentialRecord
  token : Text
  deriving DecidableEq

/-- The response has the fields of the record. -/
abbrev AdminCredentialResponse := AdminCredentialRecord

structure AdminCredentialCreateResponse extends AdminCredentialResponse where
  token : Text
  deriving DecidableEq

def adminCredentialUserDisabledError : ApiError := .python ⟨"AdminCredentialUserDisabledError"⟩

def adminCredentialInactiveError : ApiError := .python ⟨"AdminCredentialInactiveError"⟩

def runtimeError : ApiError := .python ⟨"RuntimeError"⟩

/-- `_row_to_record` and `_credential_row_to_record`, of a credential and its user. -/
def rowToRecord (credential : ApiCredentialRow) (user : Identity.UserRow) : AdminCredentialRecord where
  id := credential.id
  userId := credential.userId
  email := strColumn user.email
  displayName := user.displayName
  credentialType := credential.credentialType
  tokenPrefix := credential.tokenPrefix
  active := credential.active
  createdAt := credential.createdAt
  lastUsedAt := credential.lastUsedAt

def recordToResponse (record : AdminCredentialRecord) : AdminCredentialResponse := record

def createdRecordToResponse (created : CreatedAdminCredential) : AdminCredentialCreateResponse :=
  { recordToResponse created.record with token := created.token }

def recordToAuditState (record : AdminCredentialRecord) : AuditState :=
  .credential (recordToResponse record)

/-- The audit entry of a credential. -/
def credentialEntry (principal : AuthenticatedPrincipal) (action : String) (entityId : UUID)
    (before after : Option AdminCredentialRecord) (metadata : List (String × String)) :
    AuditEntry AuditState where
  actorType := principal.actorType
  actorId := principal.actorId
  action := action
  entityType := "api_credential"
  entityId := some entityId
  beforeState := before.map recordToAuditState
  afterState := after.map recordToAuditState
  metadata := metadata

def generateAdminApiToken : Prog IdentityApi Text := do
  let drawn ← Prog.name (σ := IdentityApi)
  if isAdminApiTokenCandidate drawn.tokenUrlsafe then pure drawn.tokenUrlsafe
  else Prog.fail (σ := IdentityApi) runtimeError

section

variable (crypto : Crypto)

/-! ## The repository -/

namespace Repository

def insertAdminCredentialRow (tx : ℕ) (credentialId userId : UUID) (token : Text) :
    Prog IdentityApi ApiCredentialRow :=
  fetchIn tx (.insertAdminCredential credentialId userId (crypto.hashApiToken token)
    (token.take tokenPrefixLength))

/-- The password of a payload that has one. -/
def upsertPassword (tx : ℕ) (userId : UUID) : Option Text → Prog IdentityApi Unit
  | none => pure ()
  | some password => do
    let id ← uuid4
    let salt ← Prog.name (σ := IdentityApi)
    fetchIn tx (.upsertPasswordCredential id userId (crypto.hashPassword password salt.tokenBytes))

/-- The transaction of `create_admin_credential`, from the user on. -/
def createFor (tx : ℕ) (payload : AdminCredentialCreate) (principal : AuthenticatedPrincipal)
    (token : Text) (credentialId : UUID) (user : Identity.UserRow) (adminRoleId : UUID) :
    Prog IdentityApi AdminCredentialRecord := do
  let _ ← fetchIn tx (.insertUserRole user.id adminRoleId)
  upsertPassword crypto tx user.id payload.password
  let credential ← insertAdminCredentialRow crypto tx credentialId user.id token
  let record := rowToRecord credential user
  insertAuditLog tx (credentialEntry principal "admin_credential.created" record.id none (some record) [])
  pure record

def createAdminCredential (payload : AdminCredentialCreate) (principal : AuthenticatedPrincipal) :
    Prog IdentityApi CreatedAdminCredential := do
  let token ← generateAdminApiToken
  let credentialId ← uuid4
  let record ← withConnection (transaction fun tx => do
    let userId ← uuid4
    let user ← fetchIn tx (.upsertActiveUser userId payload.email payload.displayName)
    match user with
    | none => Prog.fail (σ := IdentityApi) adminCredentialUserDisabledError
    | some user => do
      let adminRoleId ← fetchIn tx (.selectAdminRoleId adminRole)
      match adminRoleId with
      | none => Prog.fail (σ := IdentityApi) runtimeError
      | some adminRoleId => createFor crypto tx payload principal token credentialId user adminRoleId)
  pure ⟨record, token⟩

def listAdminCredentials (active : Option Bool) (limit offset : ℕ) :
    Prog IdentityApi (List AdminCredentialRecord) := do
  let rows ← withConnection (fetch (.selectAdminCredentials adminApiCredentialType active limit offset))
  pure (rows.map fun row => rowToRecord row.1 row.2)

def deactivateAdminCredential (credentialId : UUID) (principal : AuthenticatedPrincipal) :
    Prog IdentityApi (Option AdminCredentialRecord) :=
  withConnection (transaction fun tx => do
    let beforeRow ← fetchIn tx (.selectAdminCredentialByIdForUpdate credentialId adminApiCredentialType)
    match beforeRow with
    | none => pure none
    | some (credential, user) =>
      let before := rowToRecord credential user
      if !before.active then pure (some before)
      else do
        let afterRow ← fetchIn tx (.deactivateAdminCredential credentialId)
        match afterRow with
        | none => pure none
        | some afterRow => do
          let after := rowToRecord afterRow user
          insertAuditLog tx (credentialEntry principal "admin_credential.deactivated" after.id
            (some before) (some after) [])
          pure (some after))

/-- The transaction of `rotate_admin_credential`, from the deactivated row on. -/
def rotateTo (tx : ℕ) (principal : AuthenticatedPrincipal) (token : Text) (newCredentialId : UUID)
    (before afterOld : AdminCredentialRecord) (user : Identity.UserRow) :
    Prog IdentityApi AdminCredentialRecord := do
  let newRow ← insertAdminCredentialRow crypto tx newCredentialId before.userId token
  let newRecord := rowToRecord newRow user
  insertAuditLog tx (credentialEntry principal "admin_credential.rotated" afterOld.id (some before)
    (some afterOld) [("new_credential_id", newRecord.id.str)])
  insertAuditLog tx (credentialEntry principal "admin_credential.rotation_created" newRecord.id none
    (some newRecord) [("deactivated_credential_id", afterOld.id.str)])
  pure newRecord

def rotateAdminCredential (credentialId : UUID) (principal : AuthenticatedPrincipal) :
    Prog IdentityApi (Option CreatedAdminCredential) := do
  let token ← generateAdminApiToken
  let newCredentialId ← uuid4
  withConnection (transaction fun tx => do
    let beforeRow ← fetchIn tx (.selectAdminCredentialByIdForUpdate credentialId adminApiCredentialType)
    match beforeRow with
    | none => pure none
    | some (credential, user) =>
      let before := rowToRecord credential user
      if !before.active then Prog.fail (σ := IdentityApi) adminCredentialInactiveError
      else do
        let deactivatedRow ← fetchIn tx (.deactivateAdminCredential credentialId)
        match deactivatedRow with
        | none => pure none
        | some deactivatedRow => do
          let newRecord ← rotateTo crypto tx principal token newCredentialId before
            (rowToRecord deactivatedRow user) user
          pure (some ⟨newRecord, token⟩))

end Repository

/-! ## The router -/

def credentialNotFound : ApiError := .http 404 "admin credential not found"

def createAdminCredential (payload : AdminCredentialCreate) (principal : AuthenticatedPrincipal) :
    Prog IdentityApi AdminCredentialCreateResponse := do
  let created ← (Repository.createAdminCredential crypto payload principal).tryExcept fun e =>
    Prog.fail (σ := IdentityApi)
      (if e = adminCredentialUserDisabledError then .http 409 "admin user is disabled" else e)
  pure (createdRecordToResponse created)

def listAdminCredentials (active : Option Bool) (limit offset : ℕ) :
    Prog IdentityApi (List AdminCredentialResponse) := do
  let items ← Repository.listAdminCredentials active limit offset
  pure (items.map recordToResponse)

def deactivateAdminCredential (credentialId : UUID) (principal : AuthenticatedPrincipal) :
    Prog IdentityApi AdminCredentialResponse := do
  let record ← Repository.deactivateAdminCredential credentialId principal
  match record with
  | none => Prog.fail (σ := IdentityApi) credentialNotFound
  | some record => pure (recordToResponse record)

def rotateAdminCredential (credentialId : UUID) (principal : AuthenticatedPrincipal) :
    Prog IdentityApi AdminCredentialCreateResponse := do
  let created ← (Repository.rotateAdminCredential crypto credentialId principal).tryExcept fun e =>
    Prog.fail (σ := IdentityApi)
      (if e = adminCredentialInactiveError then .http 409 "admin credential is inactive" else e)
  match created with
  | none => Prog.fail (σ := IdentityApi) credentialNotFound
  | some created => pure (createdRecordToResponse created)

end

end AdminCredentials

end CopyTrade
