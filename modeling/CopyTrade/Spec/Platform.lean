import CopyTrade.Async.Coupled
import CopyTrade.Spec.ApiServer
import CopyTrade.Spec.BackedWorld

/-!
# The platform

The API and the workers of the copy engine on one database. The requests of the API write the users,
the exchange accounts and the copy relationships that the query of
`PostgresCopyRelationshipProvider` joins; whatever a transaction commits is there for the next
query. The subscriptions and the risk settings, which the query joins as well, change at any time.

* `SharedTables`: the tables of the query are those that the API writes.
* `Platform`: both sides, in agreement; `Platform.start`: where both begin.
-/

namespace CopyTrade

open Async (Coupled Pool)

/-- The text of an `ExchangeAccountStatus` in its column. -/
def ExchangeAccountStatus.value : ExchangeAccountStatus → String
  | .pending => "pending"
  | .active => "active"
  | .disabled => "disabled"
  | .revoked => "revoked"
  | .error => "error"

theorem ExchangeAccountStatus.value_check (status : ExchangeAccountStatus) :
    status.value ∈ ["pending", "active", "disabled", "revoked", "error"] := by
  cases status <;> simp [value]

/-- The columns of an exchange account that the query reads. -/
def ExchangeAccountRecord.joinedColumns (r : ExchangeAccountRecord) : ExchangeAccountRow where
  userId := r.userId
  exchange := r.exchange
  accountId := r.accountId
  status := r.status.value
  status_check := r.status.value_check

/-- The columns of a user that the query reads. -/
def Identity.UserRow.joinedColumns (r : Identity.UserRow) : CopyTrade.UserRow where
  id := r.id
  status := r.status
  status_check := r.status_check

/-- The tables of the query are those that the API writes. -/
structure SharedTables (s : Identity.Tables) (tables : Directory) : Prop where
  relationships : tables.relationships = s.copyRelationships
  exchangeAccounts :
    tables.exchangeAccounts.rows = s.exchangeAccounts.rows.map ExchangeAccountRecord.joinedColumns
  users : tables.users.rows = s.users.rows.map Identity.UserRow.joinedColumns

theorem UserRow.eq_iff (a b : CopyTrade.UserRow) : a = b ↔ a.id = b.id ∧ a.status = b.status := by
  cases a
  cases b
  simp

theorem ExchangeAccountRow.eq_iff (a b : ExchangeAccountRow) : a = b ↔
    a.userId = b.userId ∧ a.exchange = b.exchange ∧ a.accountId = b.accountId ∧ a.status = b.status := by
  cases a
  cases b
  simp

instance : DecidableEq CopyTrade.UserRow := fun a b => decidable_of_iff _ (UserRow.eq_iff a b).symm

instance : DecidableEq ExchangeAccountRow := fun a b =>
  decidable_of_iff _ (ExchangeAccountRow.eq_iff a b).symm

instance (s : Identity.Tables) (tables : Directory) : Decidable (SharedTables s tables) :=
  decidable_of_iff (tables.relationships.rows = s.copyRelationships.rows ∧
      tables.exchangeAccounts.rows = s.exchangeAccounts.rows.map ExchangeAccountRecord.joinedColumns ∧
      tables.users.rows = s.users.rows.map Identity.UserRow.joinedColumns)
    ⟨fun h => ⟨Sql.Table.ext h.1, h.2.1, h.2.2⟩,
      fun h => ⟨congrArg Sql.Table.rows h.relationships, h.exchangeAccounts, h.users⟩⟩

/-- The requests of the API on the left, the deliveries of the workers on the right. -/
abbrev Platform (B : Type) [Ledger B] :=
  Coupled (Sql.server identity Drawn ApiError) (backed B) fun w s => SharedTables w.db.current s.tables

/-- Both sides before their first step, over the same tables. -/
def Platform.start {B : Type} [Ledger B] (s₀ : Identity.Tables) (now : Timestamp) (supply : ℕ → Drawn)
    (s : BackedWorld B) (h : SharedTables s₀ s.tables) : Platform B :=
  ⟨Pool.init (Sql.Server.start s₀ now supply), Pool.init s, h⟩

end CopyTrade
