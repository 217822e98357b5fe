import CopyTrade.Spec.Auth

/-!
# Exchange accounts and copy relationships

The repositories and the routers of `foundation_controls.py` for exchange accounts and of
`copy_relationships.py`, as programs on the tables. PostgreSQL checks the foreign key of an
exchange account after the insert of its row.
-/

namespace CopyTrade

open Async (Prog)
open Identity
open Sql (withConnection transaction)

def foreignKeyViolationError : ApiError := .python ⟨"ForeignKeyViolationError"⟩

def uniqueViolationError : ApiError := .python ⟨"UniqueViolationError"⟩

namespace FoundationControls

def referenceNotFoundError : ApiError := .python ⟨"FoundationControlReferenceNotFoundError"⟩

def conflictError : ApiError := .python ⟨"FoundationControlConflictError"⟩

/-- The audit entry of an exchange account. -/
def exchangeAccountEntry (principal : AuthenticatedPrincipal) (action : String)
    (before : Option ExchangeAccountRecord) (after : ExchangeAccountRecord) : AuditEntry AuditState where
  actorType := principal.actorType
  actorId := principal.actorId
  action := action
  entityType := "exchange_account"
  entityId := some after.id
  beforeState := before.map fun record => .exchangeAccount (exchangeAccountToResponse record)
  afterState := some (.exchangeAccount (exchangeAccountToResponse after))

/-! ## `PostgresFoundationControlRepository` -/

namespace Repository

/-- The `except` clauses of `create_exchange_account`. -/
def createError (e : ApiError) : ApiError :=
  if e = foreignKeyViolationError then referenceNotFoundError
  else if e = uniqueViolationError then conflictError
  else e

def createExchangeAccount (payload : ExchangeAccountCreate) (principal : AuthenticatedPrincipal) :
    Prog IdentityApi ExchangeAccountRecord :=
  withConnection ((transaction fun tx => do
    let id ← uuid4
    let record ← fetchIn tx (.insertExchangeAccount id payload)
    let found ← fetchIn tx (.userExists payload.userId)
    if !found then Prog.fail (σ := IdentityApi) foreignKeyViolationError
    else do
      insertAuditLog tx (exchangeAccountEntry principal "exchange_account.created" none record)
      pure record).tryExcept fun e => Prog.fail (σ := IdentityApi) (createError e))

def listExchangeAccounts (userId : Option UUID) (statusFilter : Option ExchangeAccountStatus)
    (limit offset : ℕ) : Prog IdentityApi (List ExchangeAccountRecord) :=
  withConnection (fetch (.selectExchangeAccounts userId statusFilter limit offset))

/-- There is a field to assign. -/
def HasAssignments (payload : ExchangeAccountUpdate) : Prop :=
  payload.label ≠ none ∨ payload.status ≠ none ∨ payload.secretReference ≠ none ∨
    payload.secretFingerprint ≠ none

instance (payload : ExchangeAccountUpdate) : Decidable (HasAssignments payload) :=
  inferInstanceAs (Decidable (_ ∨ _))

def updateExchangeAccount (accountId : UUID) (payload : ExchangeAccountUpdate)
    (principal : AuthenticatedPrincipal) : Prog IdentityApi (Option ExchangeAccountRecord) :=
  if ¬ HasAssignments payload then pure none
  else
    withConnection (transaction fun tx => do
      let before ← fetchIn tx (.selectExchangeAccountByIdForUpdate accountId)
      match before with
      | none => pure none
      | some before => do
        let after ← fetchIn tx (.updateExchangeAccount accountId payload)
        match after with
        | none => pure none
        | some after => do
          insertAuditLog tx (exchangeAccountEntry principal "exchange_account.updated" (some before) after)
          pure (some after))

end Repository

/-! ## The router -/

/-- `_foundation_http_error`, for the errors of exchange accounts. -/
def foundationHttpError (e : ApiError) : ApiError :=
  if e = referenceNotFoundError then .http 404 "user not found"
  else if e = conflictError then .http 409 "exchange account already exists"
  else e

def createExchangeAccount (payload : ExchangeAccountCreate) (principal : AuthenticatedPrincipal) :
    Prog IdentityApi ExchangeAccountResponse := do
  let record ← (Repository.createExchangeAccount payload principal).tryExcept fun e =>
    Prog.fail (σ := IdentityApi) (foundationHttpError e)
  pure (exchangeAccountToResponse record)

def listExchangeAccounts (userId : Option UUID) (statusFilter : Option ExchangeAccountStatus)
    (limit offset : ℕ) : Prog IdentityApi (List ExchangeAccountResponse) := do
  let items ← Repository.listExchangeAccounts userId statusFilter limit offset
  pure (items.map exchangeAccountToResponse)

def updateExchangeAccount (accountId : UUID) (payload : ExchangeAccountUpdate)
    (principal : AuthenticatedPrincipal) : Prog IdentityApi ExchangeAccountResponse := do
  let record ← (Repository.updateExchangeAccount accountId payload principal).tryExcept fun e =>
    Prog.fail (σ := IdentityApi) (foundationHttpError e)
  match record with
  | none => Prog.fail (σ := IdentityApi) (.http 404 "exchange account not found")
  | some record => pure (exchangeAccountToResponse record)

end FoundationControls

/-! ## `PostgresCopyRelationshipRepository` -/

namespace CopyRelationships

/-- The audit entry of a copy relationship. The audit state has the fields of the record. -/
def copyRelationshipEntry (principal : AuthenticatedPrincipal) (action : String)
    (before : Option CopyRelationshipRow) (after : CopyRelationshipRow) : AuditEntry AuditState where
  actorType := principal.actorType
  actorId := principal.actorId
  action := action
  entityType := "copy_relationship"
  entityId := some after.id
  beforeState := before.map .copyRelationship
  afterState := some (.copyRelationship after)

/-- The `except` clause of both methods. -/
def duplicate (e : ApiError) : ApiError :=
  if e = uniqueViolationError then .python duplicateCopyRelationshipError else e

def create (payload : CopyRelationshipCreate) (principal : AuthenticatedPrincipal) :
    Prog IdentityApi CopyRelationshipRow :=
  withConnection ((transaction fun tx => do
    let id ← uuid4
    let record ← fetchIn tx (.insertCopyRelationship id payload)
    insertAuditLog tx (copyRelationshipEntry principal "copy_relationship.created" none record)
    pure record).tryExcept fun e => Prog.fail (σ := IdentityApi) (duplicate e))

/-- `update`, of a payload with a field to assign: every payload that passed its validation
has one. -/
def update (relationshipId : UUID) (payload : CopyRelationshipUpdate)
    (principal : AuthenticatedPrincipal) : Prog IdentityApi (Option CopyRelationshipRow) :=
  withConnection ((transaction fun tx => do
    let before ← fetchIn tx (.selectCopyRelationshipByIdForUpdate relationshipId)
    match before with
    | none => pure none
    | some before => do
      let after ← fetchIn tx (.updateCopyRelationship relationshipId payload)
      match after with
      | none => pure none
      | some after => do
        insertAuditLog tx (copyRelationshipEntry principal "copy_relationship.updated" (some before) after)
        pure (some after)).tryExcept fun e => Prog.fail (σ := IdentityApi) (duplicate e))

end CopyRelationships

end CopyTrade
