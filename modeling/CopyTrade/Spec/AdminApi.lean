import CopyTrade.Async.Lockstep
import CopyTrade.Spec.AdminCredentials
import CopyTrade.Spec.FoundationControls

/-!
# The admin API, request by request

The operations of the admin routes on exchange accounts and admin credentials, what they
respond, and a sequence of such requests on one server. A payload that fails its validation
is no request here.

* `refusal`: the error that PostgreSQL raises for a statement it does not take.
* `handle`, `respond`: the route of an operation, and the response to what it returned or
  raised.
* `serve`: the responses to a sequence of requests, and the server after it.
-/

namespace CopyTrade

open Async (Prog)
open Identity
open Python (Text)

/-- A value that its column does not take. -/
def dataError : ApiError := .python ⟨"DataError"⟩

namespace Identity

/-- The columns take the values of the statement. -/
def Stmt.Fits : Stmt → Prop
  | .upsertActiveUser _ email displayName =>
    Sql.text? email ≠ none ∧ Sql.nullable Sql.text? displayName ≠ none
  | .insertExchangeAccount _ payload => payload.Storable
  | .updateExchangeAccount _ payload => payload.Storable
  | .insertCopyRelationship id payload => relationshipRow? id 0 payload ≠ none
  | _ => True

instance : DecidablePred Stmt.Fits := fun c => by
  cases c <;> unfold Stmt.Fits <;> infer_instance

/-- What a refused statement raises. -/
def refusal : Sql.Call identity → ApiError
  | .run _ c => if Stmt.Fits c then uniqueViolationError else dataError
  | .query (.selectPasswordLogin _) => dataError
  | _ => uniqueViolationError

end Identity

inductive AdminOperation where
  | createExchangeAccount (payload : ExchangeAccountCreate)
  | listExchangeAccounts (userId : Option UUID) (status : Option ExchangeAccountStatus)
      (limit offset : ℕ)
  | updateExchangeAccount (accountId : UUID) (payload : ExchangeAccountUpdate)
  | createAdminCredential (payload : AdminCredentials.AdminCredentialCreate)
  | listAdminCredentials (active : Option Bool) (limit offset : ℕ)
  | deactivateAdminCredential (credentialId : UUID)
  | rotateAdminCredential (credentialId : UUID)

inductive AdminResponse where
  | exchangeAccount (account : ExchangeAccountResponse)
  | exchangeAccounts (accounts : List ExchangeAccountResponse)
  | credential (credential : AdminCredentials.AdminCredentialResponse)
  | credentials (credentials : List AdminCredentials.AdminCredentialResponse)
  | createdCredential (credential : AdminCredentials.AdminCredentialCreateResponse)
  | error (statusCode : ℕ) (detail : String)
  deriving DecidableEq

section

variable (crypto : Crypto)

def handle (principal : AuthenticatedPrincipal) : AdminOperation → Prog IdentityApi AdminResponse
  | .createExchangeAccount payload => do
    let account ← FoundationControls.createExchangeAccount payload principal
    pure (.exchangeAccount account)
  | .listExchangeAccounts userId status limit offset => do
    let accounts ← FoundationControls.listExchangeAccounts userId status limit offset
    pure (.exchangeAccounts accounts)
  | .updateExchangeAccount accountId payload => do
    let account ← FoundationControls.updateExchangeAccount accountId payload principal
    pure (.exchangeAccount account)
  | .createAdminCredential payload => do
    let credential ← AdminCredentials.createAdminCredential crypto payload principal
    pure (.createdCredential credential)
  | .listAdminCredentials active limit offset => do
    let credentials ← AdminCredentials.listAdminCredentials active limit offset
    pure (.credentials credentials)
  | .deactivateAdminCredential credentialId => do
    let credential ← AdminCredentials.deactivateAdminCredential credentialId principal
    pure (.credential credential)
  | .rotateAdminCredential credentialId => do
    let credential ← AdminCredentials.rotateAdminCredential crypto credentialId principal
    pure (.createdCredential credential)

/-- An exception that no handler turned into a response is a 500. -/
def respond : Except ApiError AdminResponse → AdminResponse
  | .ok response => response
  | .error (.http statusCode detail) => .error statusCode detail
  | .error (.python _) => .error 500 "Internal Server Error"

/-- A request of an admin: the time since the request before, and what the process draws
from its surroundings to serve it. -/
structure AdminCall where
  principal : AuthenticatedPrincipal
  elapsed : ℕ
  drawn : ℕ → Drawn
  operation : AdminOperation

/-- The server when the request comes in. -/
def AdminCall.arrive (call : AdminCall) (w : Sql.Server identity Drawn) : Sql.Server identity Drawn :=
  ⟨w.db.elapse call.elapsed, call.drawn, 0⟩

/-- The responses to a sequence of requests, and the server after it. -/
def serve : List AdminCall → Sql.Server identity Drawn → List AdminResponse × Sql.Server identity Drawn
  | [], w => ([], w)
  | call :: calls, w =>
    let ended := (handle crypto call.principal call.operation).perform
      (Sql.server identity Drawn ApiError) refusal (call.arrive w)
    let later := serve calls ended.2
    (respond ended.1 :: later.1, later.2)

end

end CopyTrade
