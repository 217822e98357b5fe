import CopyTrade.Python.Text
import CopyTrade.Spec.Audit
import CopyTrade.Spec.ExchangeAccount
import CopyTrade.Spec.RelationshipApi
import CopyTrade.Sql.Column
import Mathlib.Data.List.Sort

/-!
# Users, credentials and sessions, and what admins administer

The tables behind the login and the admin API, and the statements of `identity.py`,
`sessions.py` and `admin_credentials.py`, and of `foundation_controls.py` on exchange
accounts and `copy_relationships.py`, on them.

* `query`, `exec`: what each statement does, outside and inside a transaction block.
* `queryLocks`, `locks`: the rows and index entries that it locks.

Columns that no modelled function reads (`created_at` and `updated_at` of most tables,
`user_agent`, `ip_address`) are left out. So are the foreign keys, but that of
`exchange_accounts`: users are not deleted, and every other statement takes its ids from
rows that it or its transaction has read.
-/

namespace CopyTrade

open Python (Text)
open Sql (Table Lock)

/-- A SHA-256 digest. The CHECKs on the hash columns admit 64 lowercase hex characters. -/
abbrev Digest := BitVec 256

namespace Identity

/-- A row of `users`. -/
structure UserRow where
  id : UUID
  email : Option String
  displayName : Option String
  status : String
  status_check : status ∈ ["active", "disabled"]
  deriving DecidableEq

/-- A row of `roles`. -/
structure RoleRow where
  id : UUID
  name : String
  deriving DecidableEq

/-- A row of `user_roles`. -/
structure UserRoleRow where
  userId : UUID
  roleId : UUID
  deriving DecidableEq

/-- A row of `api_credentials`. -/
structure ApiCredentialRow where
  id : UUID
  userId : UUID
  credentialType : String
  tokenHash : Digest
  tokenPrefix : Option Text
  active : Bool
  createdAt : Timestamp
  lastUsedAt : Option Timestamp
  type_check : credentialType ∈ ["admin_api_token"]
  deriving DecidableEq

/-- A row of `password_credentials`. -/
structure PasswordCredentialRow where
  id : UUID
  userId : UUID
  passwordHash : String
  active : Bool
  lastUsedAt : Option Timestamp
  deriving DecidableEq

/-- A row of `user_sessions`. -/
structure UserSessionRow where
  id : UUID
  userId : UUID
  sessionTokenHash : Digest
  csrfTokenHash : Digest
  expiresAt : Timestamp
  revokedAt : Option Timestamp
  lastSeenAt : Option Timestamp
  deriving DecidableEq

/-! ### Unique columns -/

instance : Sql.Constrained UserRow where
  Clash a b := a.id = b.id ∨ ∃ e ∈ a.email, e ∈ b.email
  clash_symm h := h.imp Eq.symm fun ⟨e, ha, hb⟩ => ⟨e, hb, ha⟩
  decidable _ _ := inferInstanceAs (Decidable (_ ∨ ∃ e ∈ _, _))

instance : Sql.Keyed UserRow UUID String where
  id r := r.id
  entries r := r.email.toList
  clash_iff := by simp [Sql.Clash]

instance : Sql.Constrained RoleRow where
  Clash a b := a.id = b.id ∨ a.name = b.name
  clash_symm h := h.imp Eq.symm Eq.symm
  decidable _ _ := inferInstance

instance : Sql.Keyed RoleRow UUID String where
  id r := r.id
  entries r := [r.name]
  clash_iff := by simp [Sql.Clash]

instance : Sql.Constrained UserRoleRow where
  Clash a b := (a.userId, a.roleId) = (b.userId, b.roleId)
  clash_symm h := h.symm
  decidable _ _ := inferInstance

instance : Sql.Keyed UserRoleRow (UUID × UUID) Empty where
  id r := (r.userId, r.roleId)
  entries _ := []
  clash_iff := by simp [Sql.Clash]

instance : Sql.Constrained ApiCredentialRow where
  Clash a b := a.id = b.id ∨ a.tokenHash = b.tokenHash
  clash_symm h := h.imp Eq.symm Eq.symm
  decidable _ _ := inferInstance

instance : Sql.Keyed ApiCredentialRow UUID Digest where
  id r := r.id
  entries r := [r.tokenHash]
  clash_iff := by simp [Sql.Clash]

instance : Sql.Constrained PasswordCredentialRow where
  Clash a b := a.id = b.id ∨ a.userId = b.userId
  clash_symm h := h.imp Eq.symm Eq.symm
  decidable _ _ := inferInstance

instance : Sql.Keyed PasswordCredentialRow UUID UUID where
  id r := r.id
  entries r := [r.userId]
  clash_iff := by simp [Sql.Clash]

instance : Sql.Constrained UserSessionRow where
  Clash a b := a.id = b.id ∨ a.sessionTokenHash = b.sessionTokenHash
  clash_symm h := h.imp Eq.symm Eq.symm
  decidable _ _ := inferInstance

instance : Sql.Keyed UserSessionRow UUID Digest where
  id r := r.id
  entries r := [r.sessionTokenHash]
  clash_iff := by simp [Sql.Clash]

instance : Sql.Keyed CopyRelationshipRow UUID
    (Exchange × String × String × String × Exchange × String) where
  id r := r.id
  entries r := if r.active = true then [r.route] else []
  clash_iff {a b} := by
    cases ha : a.active <;> cases hb : b.active <;> simp [Sql.Clash, ha, hb]

/-- `AdminCredentialRecord` -/
structure AdminCredentialRecord where
  id : UUID
  userId : UUID
  email : String
  displayName : Option String
  credentialType : String
  tokenPrefix : Option Text
  active : Bool
  createdAt : Timestamp
  lastUsedAt : Option Timestamp
  deriving DecidableEq

/-- What the repositories record as audit states. -/
inductive AuditState where
  | credential (record : AdminCredentialRecord)
  | session (userId : UUID) (roles : List String)
  | revoked
  | exchangeAccount (response : ExchangeAccountResponse)
  | copyRelationship (record : CopyRelationshipRow)
  deriving DecidableEq

/-- The tables. -/
structure Tables where
  users : Table UserRow
  roles : Table RoleRow
  userRoles : Table UserRoleRow
  apiCredentials : Table ApiCredentialRow
  passwordCredentials : Table PasswordCredentialRow
  userSessions : Table UserSessionRow
  auditLogs : AuditLogs AuditState
  exchangeAccounts : Table ExchangeAccountRecord := .empty
  copyRelationships : Relationships := .empty

/-! ## The statements outside a transaction -/

/-- The names of the roles that the joins find for a user, as `array_agg` lists them. -/
def rolesOf (userId : UUID) (s : Tables) : List String :=
  ((s.userRoles.rows.filter fun ur => ur.userId = userId).filterMap fun ur =>
    (s.roles.get ur.roleId).map RoleRow.name).insertionSort fun a b => a ≤ b

/-- The joins on `users`, `user_roles` and `roles`: the active user with its roles, or no
row where it holds none. -/
def activeUser? (userId : UUID) (s : Tables) : Option (UserRow × List String) :=
  (s.users.get userId).bind fun user =>
    if user.status = "active" ∧ rolesOf userId s ≠ [] then some (user, rolesOf userId s) else none

/-- The row of `SELECT_ADMIN_CREDENTIAL_SQL`. -/
structure AdminCredentialMatch where
  userId : UUID
  credentialId : UUID
  roles : List String
  deriving DecidableEq

def selectAdminCredential (credentialType : String) (tokenHash : Digest) (s : Tables) :
    Option AdminCredentialMatch :=
  s.apiCredentials.rows.findSome? fun c =>
    if c.credentialType = credentialType ∧ c.tokenHash = tokenHash ∧ c.active = true then
      (activeUser? c.userId s).map fun u => ⟨u.1.id, c.id, u.2⟩
    else none

/-- The row of `SELECT_SESSION_SQL`. -/
structure SessionMatch where
  sessionId : UUID
  csrfTokenHash : Digest
  expiresAt : Timestamp
  userId : UUID
  email : Option String
  displayName : Option String
  roles : List String
  deriving DecidableEq

def selectSession (sessionTokenHash : Digest) (now : Timestamp) (s : Tables) :
    Option SessionMatch :=
  s.userSessions.rows.findSome? fun session =>
    if session.sessionTokenHash = sessionTokenHash ∧ session.revokedAt = none ∧
        session.expiresAt > now then
      (activeUser? session.userId s).map fun u =>
        ⟨session.id, session.csrfTokenHash, session.expiresAt, u.1.id, u.1.email, u.1.displayName, u.2⟩
    else none

/-- The row of `SELECT_PASSWORD_LOGIN_SQL`. -/
structure PasswordLoginMatch where
  userId : UUID
  email : Option String
  displayName : Option String
  passwordCredentialId : UUID
  passwordHash : String
  roles : List String
  deriving DecidableEq

def selectPasswordLogin (email : String) (s : Tables) : Option PasswordLoginMatch :=
  s.users.rows.findSome? fun user =>
    if user.email = some email then
      (activeUser? user.id s).bind fun u =>
        (s.passwordCredentials.rows.find? fun p => p.userId = user.id ∧ p.active = true).map fun p =>
          ⟨user.id, user.email, user.displayName, p.id, p.passwordHash, u.2⟩
    else none

/-- `REVOKE_SESSION_SQL`, on one row. -/
def revoke (now : Timestamp) (r : UserSessionRow) : UserSessionRow := { r with revokedAt := some now }

/-- The rows that `REVOKE_SESSION_SQL` updates: one at most, as the hash is unique. -/
def revocable? (sessionTokenHash : Digest) (s : Tables) : Option UserSessionRow :=
  s.userSessions.rows.find? fun r =>
    r.sessionTokenHash = sessionTokenHash ∧ r.revokedAt = none

/-- `ORDER BY createdAt DESC LIMIT … OFFSET …` -/
def page {α : Type} (createdAt : α → Timestamp) (limit offset : ℕ) (rows : List α) : List α :=
  ((rows.insertionSort fun a b => createdAt b ≤ createdAt a).drop offset).take limit

/-- `SELECT_ADMIN_CREDENTIALS_SQL`, with its filter. -/
def selectAdminCredentials (credentialType : String) (active : Option Bool) (limit offset : ℕ)
    (s : Tables) : List (ApiCredentialRow × UserRow) :=
  page (fun p => p.1.createdAt) limit offset
    ((s.apiCredentials.rows.filter fun c => c.credentialType = credentialType ∧
        ∀ a ∈ active, c.active = a).filterMap fun c => (s.users.get c.userId).map fun u => (c, u))

/-- `SELECT_EXCHANGE_ACCOUNTS_SQL`, with its filters. -/
def selectExchangeAccounts (userId : Option UUID) (status : Option ExchangeAccountStatus)
    (limit offset : ℕ) (s : Tables) : List ExchangeAccountRecord :=
  page ExchangeAccountRecord.createdAt limit offset
    (s.exchangeAccounts.rows.filter fun r => (∀ u ∈ userId, r.userId = u) ∧ ∀ st ∈ status, r.status = st)

inductive Query where
  | selectAdminCredential (credentialType : String) (tokenHash : Digest)
  | updateCredentialLastUsed (id : UUID)
  | selectSession (sessionTokenHash : Digest)
  | updateSessionLastSeen (id : UUID)
  | revokeSession (sessionTokenHash : Digest)
  | selectPasswordLogin (email : String)
  | insertAuditLog (id : UUID) (entry : AuditEntry AuditState)
  | selectAdminCredentials (credentialType : String) (active : Option Bool) (limit offset : ℕ)
  | selectExchangeAccounts (userId : Option UUID) (status : Option ExchangeAccountStatus)
      (limit offset : ℕ)

abbrev Answer : Query → Type
  | .selectAdminCredential _ _ => Option AdminCredentialMatch
  | .selectSession _ => Option SessionMatch
  | .revokeSession _ => Option (UUID × UUID)
  | .selectPasswordLogin _ => Option PasswordLoginMatch
  | .selectAdminCredentials _ _ _ _ => List (ApiCredentialRow × UserRow)
  | .selectExchangeAccounts _ _ _ _ => List ExchangeAccountRecord
  | _ => Unit

/-! ## The statements of transactions -/

inductive Stmt where
  | upsertActiveUser (id : UUID) (email : String) (displayName : Option String)
  | selectAdminRoleId (name : String)
  | insertUserRole (userId roleId : UUID)
  | upsertPasswordCredential (id userId : UUID) (passwordHash : String)
  | insertAdminCredential (id userId : UUID) (tokenHash : Digest) (tokenPrefix : Text)
  | selectAdminCredentialByIdForUpdate (id : UUID) (credentialType : String)
  | deactivateAdminCredential (id : UUID)
  | insertSession (id userId : UUID) (sessionTokenHash csrfTokenHash : Digest) (expiresAt : Timestamp)
  | updatePasswordLastUsed (id : UUID)
  | insertAuditLog (id : UUID) (entry : AuditEntry AuditState)
  | insertExchangeAccount (id : UUID) (payload : ExchangeAccountCreate)
  | userExists (id : UUID)
  | selectExchangeAccountByIdForUpdate (id : UUID)
  | updateExchangeAccount (id : UUID) (payload : ExchangeAccountUpdate)
  | insertCopyRelationship (id : UUID) (payload : CopyRelationshipCreate)
  | selectCopyRelationshipByIdForUpdate (id : UUID)
  | updateCopyRelationship (id : UUID) (payload : CopyRelationshipUpdate)

abbrev Ret : Stmt → Type
  | .upsertActiveUser _ _ _ => Option UserRow
  | .selectAdminRoleId _ => Option UUID
  | .insertUserRole _ _ => Bool
  | .insertAdminCredential _ _ _ _ => ApiCredentialRow
  | .selectAdminCredentialByIdForUpdate _ _ => Option (ApiCredentialRow × UserRow)
  | .deactivateAdminCredential _ => Option ApiCredentialRow
  | .insertExchangeAccount _ _ => ExchangeAccountRecord
  | .userExists _ => Bool
  | .selectExchangeAccountByIdForUpdate _ => Option ExchangeAccountRecord
  | .updateExchangeAccount _ _ => Option ExchangeAccountRecord
  | .insertCopyRelationship _ _ => CopyRelationshipRow
  | .selectCopyRelationshipByIdForUpdate _ => Option CopyRelationshipRow
  | .updateCopyRelationship _ _ => Option CopyRelationshipRow
  | _ => Unit

/-! ### What can be locked -/

inductive Key where
  | users (k : Lock UUID String)
  | userRoles (k : Lock (UUID × UUID) Empty)
  | apiCredentials (k : Lock UUID Digest)
  | passwordCredentials (k : Lock UUID UUID)
  | userSessions (k : Lock UUID Digest)
  | auditLogs (k : Lock UUID Empty)
  | exchangeAccounts (k : Lock UUID (Exchange × String))
  | copyRelationships (k : Lock UUID (Exchange × String × String × String × Exchange × String))
  deriving DecidableEq

inductive Cell where
  | users (c : Sql.TableCell UserRow UUID)
  | userRoles (c : Sql.TableCell UserRoleRow (UUID × UUID))
  | apiCredentials (c : Sql.TableCell ApiCredentialRow UUID)
  | passwordCredentials (c : Sql.TableCell PasswordCredentialRow UUID)
  | userSessions (c : Sql.TableCell UserSessionRow UUID)
  | auditLogs (c : Sql.TableCell (AuditLogRow AuditState) UUID)
  | exchangeAccounts (c : Sql.TableCell ExchangeAccountRecord UUID)
  | copyRelationships (c : Sql.TableCell CopyRelationshipRow UUID)

def cell (s : Tables) : Key → Cell
  | .users k => .users (s.users.cell k)
  | .userRoles k => .userRoles (s.userRoles.cell k)
  | .apiCredentials k => .apiCredentials (s.apiCredentials.cell k)
  | .passwordCredentials k => .passwordCredentials (s.passwordCredentials.cell k)
  | .userSessions k => .userSessions (s.userSessions.cell k)
  | .auditLogs k => .auditLogs (s.auditLogs.cell k)
  | .exchangeAccounts k => .exchangeAccounts (s.exchangeAccounts.cell k)
  | .copyRelationships k => .copyRelationships (s.copyRelationships.cell k)

def users : Sql.Component UserRow cell where
  table s := s.users
  put t s := { s with users := t }
  key := .users
  wrap := .users
  wrap_inj h := Cell.users.inj h
  table_put _ _ := rfl
  cell_key _ _ := rfl
  cell_put _ _ k h := by cases k with
    | users l => exact absurd rfl (h l)
    | _ => rfl

def userRoles : Sql.Component UserRoleRow cell where
  table s := s.userRoles
  put t s := { s with userRoles := t }
  key := .userRoles
  wrap := .userRoles
  wrap_inj h := Cell.userRoles.inj h
  table_put _ _ := rfl
  cell_key _ _ := rfl
  cell_put _ _ k h := by cases k with
    | userRoles l => exact absurd rfl (h l)
    | _ => rfl

def apiCredentials : Sql.Component ApiCredentialRow cell where
  table s := s.apiCredentials
  put t s := { s with apiCredentials := t }
  key := .apiCredentials
  wrap := .apiCredentials
  wrap_inj h := Cell.apiCredentials.inj h
  table_put _ _ := rfl
  cell_key _ _ := rfl
  cell_put _ _ k h := by cases k with
    | apiCredentials l => exact absurd rfl (h l)
    | _ => rfl

def passwordCredentials : Sql.Component PasswordCredentialRow cell where
  table s := s.passwordCredentials
  put t s := { s with passwordCredentials := t }
  key := .passwordCredentials
  wrap := .passwordCredentials
  wrap_inj h := Cell.passwordCredentials.inj h
  table_put _ _ := rfl
  cell_key _ _ := rfl
  cell_put _ _ k h := by cases k with
    | passwordCredentials l => exact absurd rfl (h l)
    | _ => rfl

def userSessions : Sql.Component UserSessionRow cell where
  table s := s.userSessions
  put t s := { s with userSessions := t }
  key := .userSessions
  wrap := .userSessions
  wrap_inj h := Cell.userSessions.inj h
  table_put _ _ := rfl
  cell_key _ _ := rfl
  cell_put _ _ k h := by cases k with
    | userSessions l => exact absurd rfl (h l)
    | _ => rfl

def auditLogs : Sql.Component (AuditLogRow AuditState) cell where
  table s := s.auditLogs
  put t s := { s with auditLogs := t }
  key := .auditLogs
  wrap := .auditLogs
  wrap_inj h := Cell.auditLogs.inj h
  table_put _ _ := rfl
  cell_key _ _ := rfl
  cell_put _ _ k h := by cases k with
    | auditLogs l => exact absurd rfl (h l)
    | _ => rfl

def exchangeAccounts : Sql.Component ExchangeAccountRecord cell where
  table s := s.exchangeAccounts
  put t s := { s with exchangeAccounts := t }
  key := .exchangeAccounts
  wrap := .exchangeAccounts
  wrap_inj h := Cell.exchangeAccounts.inj h
  table_put _ _ := rfl
  cell_key _ _ := rfl
  cell_put _ _ k h := by cases k with
    | exchangeAccounts l => exact absurd rfl (h l)
    | _ => rfl

def copyRelationships : Sql.Component CopyRelationshipRow cell where
  table s := s.copyRelationships
  put t s := { s with copyRelationships := t }
  key := .copyRelationships
  wrap := .copyRelationships
  wrap_inj h := Cell.copyRelationships.inj h
  table_put _ _ := rfl
  cell_key _ _ := rfl
  cell_put _ _ k h := by cases k with
    | copyRelationships l => exact absurd rfl (h l)
    | _ => rfl

/-! ### What the statements do -/

def adminApiCredentialType : String := "admin_api_token"

def touchCredential (now : Timestamp) (r : ApiCredentialRow) : ApiCredentialRow :=
  { r with lastUsedAt := some now }

def touchSession (now : Timestamp) (r : UserSessionRow) : UserSessionRow :=
  { r with lastSeenAt := some now }

def touchPassword (now : Timestamp) (r : PasswordCredentialRow) : PasswordCredentialRow :=
  { r with lastUsedAt := some now }

def query : (q : Query) → Timestamp → Tables → Option (Answer q × Tables)
  | .selectAdminCredential credentialType tokenHash, _, s =>
    some (selectAdminCredential credentialType tokenHash s, s)
  | .updateCredentialLastUsed id, now, s =>
    (apiCredentials.update? id (touchCredential now) s).map fun t => ((), t)
  | .selectSession sessionTokenHash, now, s => some (selectSession sessionTokenHash now s, s)
  | .updateSessionLastSeen id, now, s =>
    (userSessions.update? id (touchSession now) s).map fun t => ((), t)
  | .revokeSession sessionTokenHash, now, s =>
    match revocable? sessionTokenHash s with
    | none => some (none, s)
    | some r => (userSessions.update? r.id (revoke now) s).map fun t => (some (r.id, r.userId), t)
  | .selectPasswordLogin email, _, s =>
    (Sql.text? email).map fun email => (selectPasswordLogin email s, s)
  | .insertAuditLog id entry, now, s => (auditLogs.insert? (entry.row id now) s).map fun t => ((), t)
  | .selectAdminCredentials credentialType active limit offset, _, s =>
    some (selectAdminCredentials credentialType active limit offset s, s)
  | .selectExchangeAccounts userId status limit offset, _, s =>
    some (selectExchangeAccounts userId status limit offset s, s)

def queryLocks : Query → Tables → List Key
  | .updateCredentialLastUsed id, _ => [.apiCredentials (.row id)]
  | .updateSessionLastSeen id, _ => [.userSessions (.row id)]
  | .revokeSession sessionTokenHash, s =>
    match revocable? sessionTokenHash s with
    | none => []
    | some r => [.userSessions (.row r.id)]
  | .insertAuditLog id _, _ => [.auditLogs (.row id)]
  | _, _ => []

theorem active_status : "active" ∈ ["active", "disabled"] := by decide

theorem adminApiCredentialType_check : adminApiCredentialType ∈ ["admin_api_token"] := by decide

/-- The row that `UPSERT_ACTIVE_USER_SQL` inserts. -/
def newUser (id : UUID) (email : String) (displayName : Option String) : UserRow where
  id := id
  email := some email
  displayName := displayName
  status := "active"
  status_check := active_status

/-- What it sets where the email is taken. -/
def rename (displayName : Option String) (r : UserRow) : UserRow :=
  { r with displayName := displayName.or r.displayName }

def setPassword (passwordHash : String) (r : PasswordCredentialRow) : PasswordCredentialRow :=
  { r with passwordHash := passwordHash, active := true }

/-- The row of `INSERT_ADMIN_CREDENTIAL_SQL`. -/
def newCredential (id userId : UUID) (tokenHash : Digest) (tokenPrefix : Text) (now : Timestamp) :
    ApiCredentialRow where
  id := id
  userId := userId
  credentialType := adminApiCredentialType
  tokenHash := tokenHash
  tokenPrefix := some tokenPrefix
  active := true
  createdAt := now
  lastUsedAt := none
  type_check := adminApiCredentialType_check

def deactivate (r : ApiCredentialRow) : ApiCredentialRow := { r with active := false }

/-- The row of `INSERT_SESSION_SQL`. -/
def newSession (id userId : UUID) (sessionTokenHash csrfTokenHash : Digest)
    (expiresAt : Timestamp) : UserSessionRow :=
  ⟨id, userId, sessionTokenHash, csrfTokenHash, expiresAt, none, none⟩

/-- The row of `SELECT_ADMIN_CREDENTIAL_BY_ID_FOR_UPDATE_SQL`. -/
def credentialById (id : UUID) (credentialType : String) (s : Tables) :
    Option (ApiCredentialRow × UserRow) :=
  (s.apiCredentials.get id).bind fun c =>
    if c.credentialType = credentialType then (s.users.get c.userId).map fun u => (c, u) else none

def exec : (c : Stmt) → Timestamp → Tables → Option (Ret c × Tables)
  | .upsertActiveUser id email displayName, _, s =>
    (Sql.text? email).bind fun email => (Sql.nullable Sql.text? displayName).bind fun displayName =>
      match s.users.owner email with
      | none => (users.insert? (newUser id email displayName) s).map fun t =>
          (some (newUser id email displayName), t)
      | some userId => (s.users.get userId).bind fun user =>
          if user.status = "active" then
            (users.update? userId (rename displayName) s).map fun t =>
              (some (rename displayName user), t)
          else some (none, s)
  | .selectAdminRoleId name, _, s => some (s.roles.owner name, s)
  | .insertUserRole userId roleId, _, s =>
    match s.userRoles.get (userId, roleId) with
    | none => (userRoles.insert? ⟨userId, roleId⟩ s).map fun t => (true, t)
    | some _ => some (false, s)
  | .upsertPasswordCredential id userId passwordHash, _, s =>
    match s.passwordCredentials.owner userId with
    | none => (passwordCredentials.insert? ⟨id, userId, passwordHash, true, none⟩ s).map fun t => ((), t)
    | some pid => (passwordCredentials.update? pid (setPassword passwordHash) s).map fun t => ((), t)
  | .insertAdminCredential id userId tokenHash tokenPrefix, now, s =>
    (apiCredentials.insert? (newCredential id userId tokenHash tokenPrefix now) s).map fun t =>
      (newCredential id userId tokenHash tokenPrefix now, t)
  | .selectAdminCredentialByIdForUpdate id credentialType, _, s =>
    some (credentialById id credentialType s, s)
  | .deactivateAdminCredential id, _, s =>
    match s.apiCredentials.get id with
    | none => some (none, s)
    | some c => (apiCredentials.update? id deactivate s).map fun t => (some (deactivate c), t)
  | .insertSession id userId sessionTokenHash csrfTokenHash expiresAt, _, s =>
    (userSessions.insert? (newSession id userId sessionTokenHash csrfTokenHash expiresAt) s).map
      fun t => ((), t)
  | .updatePasswordLastUsed id, now, s =>
    (passwordCredentials.update? id (touchPassword now) s).map fun t => ((), t)
  | .insertAuditLog id entry, now, s => (auditLogs.insert? (entry.row id now) s).map fun t => ((), t)
  | .insertExchangeAccount id payload, now, s =>
    if payload.Storable then
      (exchangeAccounts.insert? (newExchangeAccount id now payload) s).map fun t =>
        (newExchangeAccount id now payload, t)
    else none
  | .userExists id, _, s => some ((s.users.get id).isSome, s)
  | .selectExchangeAccountByIdForUpdate id, _, s => some (s.exchangeAccounts.get id, s)
  | .updateExchangeAccount id payload, now, s =>
    if payload.Storable then
      match s.exchangeAccounts.get id with
      | none => some (none, s)
      | some r => (exchangeAccounts.update? id (assignAccount now payload) s).map fun t =>
          (some (assignAccount now payload r), t)
    else none
  | .insertCopyRelationship id payload, now, s =>
    (relationshipRow? id now payload).bind fun row =>
      (copyRelationships.insert? row s).map fun t => (row, t)
  | .selectCopyRelationshipByIdForUpdate id, _, s => some (s.copyRelationships.get id, s)
  | .updateCopyRelationship id payload, now, s =>
    match s.copyRelationships.get id with
    | none => some (none, s)
    | some r => (copyRelationships.update? id (assign now payload) s).map fun t =>
        (some (assign now payload r), t)

def locks : Stmt → Tables → List Key
  | .upsertActiveUser id email _, s =>
    match s.users.owner email with
    | none => [.users (.row id), .users (.entry email)]
    | some userId => [.users (.row userId), .users (.entry email)]
  | .selectAdminRoleId _, _ => []
  | .insertUserRole userId roleId, s =>
    match s.userRoles.get (userId, roleId) with
    | none => [.userRoles (.row (userId, roleId))]
    | some _ => []
  | .upsertPasswordCredential id userId _, s =>
    match s.passwordCredentials.owner userId with
    | none => [.passwordCredentials (.row id), .passwordCredentials (.entry userId)]
    | some pid => [.passwordCredentials (.row pid), .passwordCredentials (.entry userId)]
  | .insertAdminCredential id _ tokenHash _, _ =>
    [.apiCredentials (.row id), .apiCredentials (.entry tokenHash)]
  | .selectAdminCredentialByIdForUpdate id credentialType, s =>
    match credentialById id credentialType s with
    | none => []
    | some (c, u) => [.apiCredentials (.row c.id), .users (.row u.id)]
  | .deactivateAdminCredential id, s =>
    match s.apiCredentials.get id with
    | none => []
    | some _ => [.apiCredentials (.row id)]
  | .insertSession id _ sessionTokenHash _ _, _ =>
    [.userSessions (.row id), .userSessions (.entry sessionTokenHash)]
  | .updatePasswordLastUsed id, _ => [.passwordCredentials (.row id)]
  | .insertAuditLog id _, _ => [.auditLogs (.row id)]
  | .insertExchangeAccount id payload, _ =>
    [.exchangeAccounts (.row id), .exchangeAccounts (.entry (payload.exchange, payload.accountId))]
  | .userExists _, _ => []
  | .selectExchangeAccountByIdForUpdate id, s =>
    match s.exchangeAccounts.get id with
    | none => []
    | some _ => [.exchangeAccounts (.row id)]
  | .updateExchangeAccount id _, s =>
    match s.exchangeAccounts.get id with
    | none => []
    | some _ => [.exchangeAccounts (.row id)]
  | .insertCopyRelationship id payload, _ =>
    match relationshipRow? id 0 payload with
    | none => []
    | some row => copyRelationships.insertLocks row
  | .selectCopyRelationshipByIdForUpdate id, s =>
    match s.copyRelationships.get id with
    | none => []
    | some _ => [.copyRelationships (.row id)]
  | .updateCopyRelationship id payload, s =>
    match s.copyRelationships.get id with
    | none => []
    | some _ => copyRelationships.updateLocks id (assign 0 payload) s

/-- The answers that a lock keeps true: not that of a plain `SELECT`, and not that there is
no such row. -/
def pinned : (c : Stmt) → Ret c → Bool
  | .selectAdminRoleId _, _ => false
  | .insertUserRole _ _, a => a
  | .selectAdminCredentialByIdForUpdate _ _, a => a.isSome
  | .deactivateAdminCredential _, a => a.isSome
  | .userExists _, _ => false
  | .selectExchangeAccountByIdForUpdate _, a => a.isSome
  | .updateExchangeAccount _ _, a => a.isSome
  | .selectCopyRelationshipByIdForUpdate _, a => a.isSome
  | .updateCopyRelationship _ _, a => a.isSome
  | _, _ => true

end Identity

end CopyTrade
