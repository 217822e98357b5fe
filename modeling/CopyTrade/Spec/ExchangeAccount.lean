import CopyTrade.Spec.Events
import CopyTrade.Sql.Keyed
import CopyTrade.Sql.Column

/-!
# Exchange accounts

The payloads, the rows and the responses of the exchange accounts of
`foundation_controls.py`. A field of a payload that passed its validation is a field of the
structure; `secret_fingerprint` is as `normalize_fingerprint` leaves it.

* `newExchangeAccount`, `assignAccount`: what `INSERT_EXCHANGE_ACCOUNT_SQL` and the update
  make of a payload.
* `exchangeAccountToResponse`: what responses and audit states show of a row.
-/

namespace CopyTrade

inductive ExchangeAccountStatus where
  | pending
  | active
  | disabled
  | revoked
  | error
  deriving DecidableEq, Repr

/-- 64 lowercase hex characters. -/
def IsFingerprint (s : String) : Prop :=
  s.toList.length = 64 ∧ ∀ c ∈ s.toList, c ∈ "0123456789abcdef".toList

instance (s : String) : Decidable (IsFingerprint s) := inferInstanceAs (Decidable (_ ∧ _))

structure ExchangeAccountCreate where
  userId : UUID
  exchange : Exchange
  accountId : String
  label : Option String := none
  status : ExchangeAccountStatus := .pending
  secretReference : Option String := none
  secretFingerprint : Option String := none
  accountId_length : 1 ≤ accountId.length ∧ accountId.length ≤ 128
  label_length : ∀ s ∈ label, 1 ≤ s.length ∧ s.length ≤ 128
  secretReference_length : ∀ s ∈ secretReference, 1 ≤ s.length ∧ s.length ≤ 256
  secretFingerprint_hex : ∀ s ∈ secretFingerprint, IsFingerprint s

/-- A field is `none` where it is not in `model_fields_set`. -/
structure ExchangeAccountUpdate where
  label : Option (Option String) := none
  status : Option ExchangeAccountStatus := none
  secretReference : Option (Option String) := none
  secretFingerprint : Option (Option String) := none
  label_length : ∀ v ∈ label, ∀ s ∈ v, 1 ≤ s.length ∧ s.length ≤ 128
  secretReference_length : ∀ v ∈ secretReference, ∀ s ∈ v, 1 ≤ s.length ∧ s.length ≤ 256
  secretFingerprint_hex : ∀ v ∈ secretFingerprint, ∀ s ∈ v, IsFingerprint s
  require_change : label ≠ none ∨ status ≠ none ∨ secretReference ≠ none ∨ secretFingerprint ≠ none

/-- `ExchangeAccountRecord`: the columns of a row of `exchange_accounts`. -/
structure ExchangeAccountRecord where
  id : UUID
  userId : UUID
  exchange : Exchange
  accountId : String
  label : Option String
  status : ExchangeAccountStatus
  secretReference : Option String
  secretFingerprint : Option String
  createdAt : Timestamp
  updatedAt : Timestamp
  secret_fingerprint_check : ∀ s ∈ secretFingerprint, IsFingerprint s
  deriving DecidableEq

instance : Sql.Constrained ExchangeAccountRecord where
  Clash a b := a.id = b.id ∨ (a.exchange, a.accountId) = (b.exchange, b.accountId)
  clash_symm h := h.imp Eq.symm Eq.symm
  decidable _ _ := inferInstance

instance : Sql.Keyed ExchangeAccountRecord UUID (Exchange × String) where
  id r := r.id
  entries r := [(r.exchange, r.accountId)]
  clash_iff := by simp [Sql.Clash]

/-- The columns take the values of a create. -/
def ExchangeAccountCreate.Storable (payload : ExchangeAccountCreate) : Prop :=
  Sql.text? payload.accountId ≠ none ∧ Sql.nullable Sql.text? payload.label ≠ none ∧
    Sql.nullable Sql.text? payload.secretReference ≠ none

instance (payload : ExchangeAccountCreate) : Decidable payload.Storable :=
  inferInstanceAs (Decidable (_ ∧ _ ∧ _))

/-- The row of `INSERT_EXCHANGE_ACCOUNT_SQL`. -/
def newExchangeAccount (id : UUID) (now : Timestamp) (payload : ExchangeAccountCreate) :
    ExchangeAccountRecord where
  id := id
  userId := payload.userId
  exchange := payload.exchange
  accountId := payload.accountId
  label := payload.label
  status := payload.status
  secretReference := payload.secretReference
  secretFingerprint := payload.secretFingerprint
  createdAt := now
  updatedAt := now
  secret_fingerprint_check := payload.secretFingerprint_hex

/-- The columns take the values of an update. -/
def ExchangeAccountUpdate.Storable (payload : ExchangeAccountUpdate) : Prop :=
  (∀ v ∈ payload.label, Sql.nullable Sql.text? v ≠ none) ∧
    ∀ v ∈ payload.secretReference, Sql.nullable Sql.text? v ≠ none

instance (payload : ExchangeAccountUpdate) : Decidable payload.Storable :=
  inferInstanceAs (Decidable ((∀ _ ∈ _, _) ∧ ∀ _ ∈ _, _))

/-- The assignments of an update, on one row. -/
def assignAccount (now : Timestamp) (payload : ExchangeAccountUpdate) (r : ExchangeAccountRecord) :
    ExchangeAccountRecord :=
  { r with
    label := payload.label.getD r.label
    status := payload.status.getD r.status
    secretReference := payload.secretReference.getD r.secretReference
    secretFingerprint := payload.secretFingerprint.getD r.secretFingerprint
    updatedAt := now
    secret_fingerprint_check := by
      cases h : payload.secretFingerprint with
      | none => exact r.secret_fingerprint_check
      | some v => exact payload.secretFingerprint_hex v h }

structure ExchangeAccountResponse where
  id : UUID
  userId : UUID
  exchange : Exchange
  accountId : String
  label : Option String
  status : ExchangeAccountStatus
  hasSecret : Bool
  secretFingerprintPrefix : Option (List Char)
  createdAt : Timestamp
  updatedAt : Timestamp
  deriving DecidableEq

/-- `exchange_account_to_response` -/
def exchangeAccountToResponse (record : ExchangeAccountRecord) : ExchangeAccountResponse where
  id := record.id
  userId := record.userId
  exchange := record.exchange
  accountId := record.accountId
  label := record.label
  status := record.status
  hasSecret := record.secretReference.isSome || record.secretFingerprint.isSome
  secretFingerprintPrefix := record.secretFingerprint.map fun s => s.toList.take 8
  createdAt := record.createdAt
  updatedAt := record.updatedAt

end CopyTrade
