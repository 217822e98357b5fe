import CopyTrade.Spec.CopyEngine
import CopyTrade.Spec.RelationshipApi

/-!
# The provider's query

`PostgresCopyRelationshipProvider.list_active_for_event`: the tables that
`SELECT_ACTIVE_COPY_RELATIONSHIPS_SQL` joins, the query, and `_row_to_relationship`.

* `fromClause_eq`: every join is on unique columns, so the joins neither drop nor
  multiply a relationship.
* `mem_lists`: the relationships listed for an event are the matching rows of the
  table, whatever order the query leaves open.
-/

namespace CopyTrade

/-- A row of `exchange_accounts`. -/
structure ExchangeAccountRow where
  userId : UUID
  exchange : Exchange
  accountId : String
  status : String
  status_check : status ∈ ["pending", "active", "disabled", "revoked", "error"]

/-- A row of `users`. -/
structure UserRow where
  id : UUID
  status : String
  status_check : status ∈ ["active", "disabled"]

/-- A row of `user_subscriptions`. -/
structure UserSubscriptionRow where
  userId : UUID
  status : String
  copyTradingEnabled : Bool
  status_check : status ∈ ["trialing", "active", "past_due", "canceled", "disabled"]

/-- A row of `copy_relationship_risk_settings`. -/
structure RiskSettingsRow where
  copyRelationshipId : UUID
  enabled : Bool
  maxOrderQuantity : Option Decimal
  maxSlippageBps : ℤ
  maxLeverage : Option Decimal
  order_quantity_positive : ∀ q ∈ maxOrderQuantity, 0 < q
  slippage_non_negative : 0 ≤ maxSlippageBps
  leverage_positive : ∀ l ∈ maxLeverage, 0 < l

instance : Sql.Constrained ExchangeAccountRow where
  Clash a b := a.exchange = b.exchange ∧ a.accountId = b.accountId
  clash_symm h := ⟨h.1.symm, h.2.symm⟩
  decidable _ _ := inferInstanceAs (Decidable (_ ∧ _))

instance : Sql.Constrained UserRow where
  Clash a b := a.id = b.id
  clash_symm h := h.symm
  decidable _ _ := inferInstance

instance : Sql.Constrained UserSubscriptionRow where
  Clash a b := a.userId = b.userId
  clash_symm h := h.symm
  decidable _ _ := inferInstance

instance : Sql.Constrained RiskSettingsRow where
  Clash a b := a.copyRelationshipId = b.copyRelationshipId
  clash_symm h := h.symm
  decidable _ _ := inferInstance

/-- The joined tables. The foreign keys are fields. -/
structure Directory where
  relationships : Relationships
  exchangeAccounts : Sql.Table ExchangeAccountRow
  users : Sql.Table UserRow
  userSubscriptions : Sql.Table UserSubscriptionRow
  riskSettings : Sql.Table RiskSettingsRow
  exchangeAccounts_user : ∀ a ∈ exchangeAccounts.rows, ∃ u ∈ users.rows, u.id = a.userId
  userSubscriptions_user : ∀ s ∈ userSubscriptions.rows, ∃ u ∈ users.rows, u.id = s.userId
  riskSettings_relationship :
    ∀ s ∈ riskSettings.rows, ∃ r ∈ relationships.rows, r.id = s.copyRelationshipId

/-- A row of the FROM clause, under the aliases of the query. -/
structure JoinedRow where
  relationships : CopyRelationshipRow
  sourceAccount : Option ExchangeAccountRow
  followerAccount : Option ExchangeAccountRow
  followerUser : Option UserRow
  subscription : Option UserSubscriptionRow
  riskSettings : Option RiskSettingsRow

/-! ## The ON conditions -/

section

variable (r : CopyRelationshipRow) (followerAccount : Option ExchangeAccountRow)

def onSourceAccount (a : ExchangeAccountRow) : Bool :=
  a.exchange == r.sourceExchange && a.accountId == r.sourceAccountId

def onFollowerAccount (a : ExchangeAccountRow) : Bool :=
  a.exchange == r.targetExchange && a.accountId == r.followerAccountId

/-- A comparison with NULL is not true. -/
def onFollowerUser (u : UserRow) : Bool := followerAccount.any fun a => u.id == a.userId

def onSubscription (s : UserSubscriptionRow) : Bool :=
  followerAccount.any fun a => s.userId == a.userId

def onRiskSettings (s : RiskSettingsRow) : Bool := s.copyRelationshipId == r.id

end

namespace Directory

def fromClause (db : Directory) : List JoinedRow :=
  db.relationships.rows.flatMap fun r =>
  (Sql.leftJoin db.exchangeAccounts (onSourceAccount r)).flatMap fun sourceAccount =>
  (Sql.leftJoin db.exchangeAccounts (onFollowerAccount r)).flatMap fun followerAccount =>
  (Sql.leftJoin db.users (onFollowerUser followerAccount)).flatMap fun followerUser =>
  (Sql.leftJoin db.userSubscriptions (onSubscription followerAccount)).flatMap fun subscription =>
  (Sql.leftJoin db.riskSettings (onRiskSettings r)).map fun riskSettings =>
    ⟨r, sourceAccount, followerAccount, followerUser, subscription, riskSettings⟩

end Directory

/-- The WHERE clause, for `$1` to `$4` as the provider binds them. -/
def whereClause (event : NormalizedOrderEvent) (r : CopyRelationshipRow) : Bool :=
  r.active && r.sourceExchange == event.sourceExchange &&
    r.sourceAccountId == event.sourceAccountId &&
    (r.sourceSymbol == none || r.sourceSymbol == some event.symbol) &&
    decide (r.effectiveFrom ≤ event.occurredAt)

/-- The ORDER BY clause. -/
def orderBy (a b : CopyRelationshipRow) : Prop :=
  a.effectiveFrom < b.effectiveFrom ∨
    (a.effectiveFrom = b.effectiveFrom ∧ a.createdAt ≤ b.createdAt)

instance (a b : CopyRelationshipRow) : Decidable (orderBy a b) :=
  inferInstanceAs (Decidable (_ ∨ _))

/-- The SELECT list and `_row_to_relationship`. A column of a padded row is `None`, and
`bool(None)` is false. -/
def rowToRelationship (row : JoinedRow) : CopyRelationship where
  copyRelationshipId := row.relationships.id
  followerAccountId := row.relationships.followerAccountId
  targetExchange := row.relationships.targetExchange
  targetSymbol := row.relationships.targetSymbol
  effectiveFrom := row.relationships.effectiveFrom
  maxSlippageBps := row.relationships.maxSlippageBps
  active := row.relationships.active
  sourceAccountStatus := row.sourceAccount.map (·.status)
  followerAccountStatus := row.followerAccount.map (·.status)
  followerUserStatus := row.followerUser.map (·.status)
  subscriptionStatus := row.subscription.map (·.status)
  copyTradingEnabled := row.subscription.any (·.copyTradingEnabled)
  riskEnabled := row.riskSettings.any (·.enabled)
  riskMaxOrderQuantity := row.riskSettings.bind (·.maxOrderQuantity)
  riskMaxSlippageBps := row.riskSettings.map (·.maxSlippageBps)
  riskMaxLeverage := row.riskSettings.bind (·.maxLeverage)

namespace Directory

variable (db : Directory)

/-- What `list_active_for_event` may answer. Rows that the ORDER BY does not separate come
in any order, and a text parameter with U+0000 gets no answer. -/
def Lists (event : NormalizedOrderEvent) (relationships : List CopyRelationship) : Prop :=
  Sql.text? event.sourceAccountId ≠ none ∧ Sql.text? event.symbol ≠ none ∧
    ∃ rows : List JoinedRow,
      rows.Perm (db.fromClause.filter fun row => whereClause event row.relationships) ∧
      rows.Pairwise (fun a b => orderBy a.relationships b.relationships) ∧
      relationships = rows.map rowToRelationship

/-! ## The joins -/

/-- A relationship with its matches. -/
def joined (r : CopyRelationshipRow) : JoinedRow :=
  let followerAccount := db.exchangeAccounts.rows.find? (onFollowerAccount r)
  { relationships := r
    sourceAccount := db.exchangeAccounts.rows.find? (onSourceAccount r)
    followerAccount := followerAccount
    followerUser := db.users.rows.find? (onFollowerUser followerAccount)
    subscription := db.userSubscriptions.rows.find? (onSubscription followerAccount)
    riskSettings := db.riskSettings.rows.find? (onRiskSettings r) }

/-- The relationship the provider makes of a row. -/
def relationshipOf (r : CopyRelationshipRow) : CopyRelationship := rowToRelationship (db.joined r)

/-- **The FROM clause has one row for every relationship.** -/
theorem fromClause_eq : db.fromClause = db.relationships.rows.map db.joined := by
  -- an account is found under its exchange and its id
  have haccount : ∀ (e : Exchange) (id : String) {on : ExchangeAccountRow → Bool},
      (∀ a, on a = true → (a.exchange, a.accountId) = (e, id)) →
      Sql.leftJoin db.exchangeAccounts on = [db.exchangeAccounts.rows.find? on] := fun e id _ hon =>
    Sql.leftJoin_of_key (fun a => (a.exchange, a.accountId)) (e, id) (fun _ _ h => Prod.mk.inj h) hon
  have hsource : ∀ r, Sql.leftJoin db.exchangeAccounts (onSourceAccount r) =
      [db.exchangeAccounts.rows.find? (onSourceAccount r)] := by
    intro r
    apply haccount r.sourceExchange r.sourceAccountId
    intro a ha
    simpa [onSourceAccount] using ha
  have hfollower : ∀ r, Sql.leftJoin db.exchangeAccounts (onFollowerAccount r) =
      [db.exchangeAccounts.rows.find? (onFollowerAccount r)] := by
    intro r
    apply haccount r.targetExchange r.followerAccountId
    intro a ha
    simpa [onFollowerAccount] using ha
  -- a user and a subscription under the id of the follower's user, where there is one
  have huser : ∀ f, Sql.leftJoin db.users (onFollowerUser f) =
      [db.users.rows.find? (onFollowerUser f)] := by
    intro f
    apply Sql.leftJoin_of_key (fun u => some u.id) (f.map (·.userId))
    · intro a b h; exact Option.some.inj h
    · intro u hu
      cases f with
      | none => cases hu
      | some f => simpa [onFollowerUser] using hu
  have hsubscription : ∀ f, Sql.leftJoin db.userSubscriptions (onSubscription f) =
      [db.userSubscriptions.rows.find? (onSubscription f)] := by
    intro f
    apply Sql.leftJoin_of_key (fun s => some s.userId) (f.map (·.userId))
    · intro a b h; exact Option.some.inj h
    · intro s hs
      cases f with
      | none => cases hs
      | some f => simpa [onSubscription] using hs
  have hrisk : ∀ r, Sql.leftJoin db.riskSettings (onRiskSettings r) =
      [db.riskSettings.rows.find? (onRiskSettings r)] := by
    intro r
    apply Sql.leftJoin_of_key (fun s => s.copyRelationshipId) r.id
    · intro a b h; exact h
    · intro s hs; simpa [onRiskSettings] using hs
  unfold fromClause
  simp only [hsource, hfollower, huser, hsubscription, hrisk, List.flatMap_cons, List.flatMap_nil,
    List.map_cons, List.map_nil, List.append_nil]
  rw [← List.map_eq_flatMap]
  rfl

variable {db}

/-- The listed relationships are the matching rows, in some order. -/
theorem lists_perm {event : NormalizedOrderEvent} {relationships : List CopyRelationship}
    (h : db.Lists event relationships) :
    relationships.Perm ((db.relationships.rows.filter (whereClause event)).map db.relationshipOf) := by
  obtain ⟨-, -, rows, hperm, -, rfl⟩ := h
  rw [fromClause_eq, List.filter_map] at hperm
  have := hperm.map rowToRelationship
  rw [List.map_map] at this
  exact this

/-- **What is listed**: the relationships of the rows that match the event. -/
theorem mem_lists {event : NormalizedOrderEvent} {relationships : List CopyRelationship}
    (h : db.Lists event relationships) {r : CopyRelationship} :
    r ∈ relationships ↔
      ∃ row ∈ db.relationships, whereClause event row = true ∧ db.relationshipOf row = r := by
  rw [(lists_perm h).mem_iff, List.mem_map]
  constructor
  · rintro ⟨row, hrow, rfl⟩
    exact ⟨row, (List.mem_filter.1 hrow).1, (List.mem_filter.1 hrow).2, rfl⟩
  · rintro ⟨row, hrow, hw, rfl⟩
    exact ⟨row, List.mem_filter.2 ⟨hrow, hw⟩, rfl⟩

/-- No relationship is listed twice. -/
theorem nodup_lists {event : NormalizedOrderEvent} {relationships : List CopyRelationship}
    (h : db.Lists event relationships) :
    (relationships.map (·.copyRelationshipId)).Nodup := by
  rw [((lists_perm h).map _).nodup_iff, List.map_map]
  have hids : (db.relationships.rows.map (·.id)).Nodup :=
    List.pairwise_map.2 (db.relationships.apart.imp fun hc he => hc (Or.inl he))
  exact hids.sublist (List.filter_sublist.map _)

end Directory

end CopyTrade
